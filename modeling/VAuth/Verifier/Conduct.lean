import VAuth.Verifier.Broker
import VAuth.Verifier.Worker
import VAuth.Verifier.Talk

/-!
# How the parties conduct themselves

For each of the three processes, what its transcript looks like at every point of every run,
whatever the other parties do: the daemon and the broker follow the automaton of the protocol
on each of their links, and the broker reports a success to the daemon only after all of its
checks.
-/

namespace VAuth.Verifier

open Proc

/-! ## The daemon -/

/-- The transcript starts with the packet that asks for the verification. -/
def Begun (start : StartVerification) (t : History) : Prop :=
  ∃ packet rest, encodeVerifierMessage (.start start) = .ok packet ∧
    t = .sent .outer .daemon packet :: rest

theorem Begun.append {start : StartVerification} {t : History} (h : Begun start t) (es : History) :
    Begun start (t ++ es) := by
  obtain ⟨packet, rest, hPacket, rfl⟩ := h
  exact ⟨packet, rest ++ es, hPacket, rfl⟩

/-- How the daemon's client talks: not at all yet, or from its start packet on. -/
def DaemonTalk (start : StartVerification) (v : View) : Prop :=
  v.1 = [] ∨ Begun start v.1 ∧ ∃ o, Conversation .outer v.1 o

/-- The client is in the middle of its conversation. -/
structure Talking (start : StartVerification) (c : VerifierConversationState) (v : View) : Prop where
  begun : Begun start v.1
  talk : Conversation .outer v.1 (some c)

namespace Talking

variable {start : StartVerification} {c next : VerifierConversationState} {v : View}
  {message : VerifierMessage} {packet : Bytes}

theorem daemonTalk (h : Talking start c v) : DaemonTalk start v := .inr ⟨h.begun, _, h.talk⟩

theorem sends (h : Talking start c v) (hPacket : encodeVerifierMessage message = .ok packet)
    (hNext : advanceVerifierConversation c .daemon message = .ok next) :
    Talking start next (v.1 ++ [.sent .outer .daemon packet], v.2) where
  begun := h.begun.append _
  talk := h.talk.sent hPacket hNext

theorem receives (h : Talking start c v) (hPacket : encodeVerifierMessage message = .ok packet)
    (hNext : advanceVerifierConversation c .pamVerifier message = .ok next) :
    Talking start next (v.1 ++ [.received .outer .pamVerifier packet], v.2) where
  begun := h.begun.append _
  talk := h.talk.received hPacket hNext

theorem refuses (h : Talking start .verifying v) (hUnfit : Unfit .verifying .pamVerifier packet) :
    DaemonTalk start (v.1 ++ [.refused .outer .pamVerifier packet], v.2) :=
  .inr ⟨h.begun.append _, _, h.talk.refused rfl hUnfit⟩

end Talking

section Daemon

variable {start : StartVerification} {s : System} {v : View} {c : VerifierConversationState}
  (rounds : Nat)

/-- A cancellation may be sent while the conversation goes on. -/
theorem advance_cancel (hLive : verifierConversationIsTerminal c = false)
    (hStarted : c ≠ .awaitingStart) :
    advanceVerifierConversation c .daemon .cancel = .ok .cancelled := by
  cases c with
  | awaitingStart => exact absurd rfl hStarted
  | verifying => rfl
  | awaitingSecret => rfl
  | completed result => cases hLive
  | cancelled => cases hLive

theorem wp_daemon_sendCancel (hs : s.view .daemon = v) (h : Talking start c v)
    (hStarted : c ≠ .awaitingStart) :
    wp (partySetting .daemon (DaemonTalk start)) (fun _ _ => True) (fun _ _ => True)
      ((daemonClient rounds).sendCancel c) s := by
  unfold VerifierClient.sendCancel
  by_cases hLive : verifierConversationIsTerminal c = true
  · rw [if_pos hLive]
    trivial
  rw [if_neg hLive]
  have hCancel := advance_cancel (eq_false_of_ne_true hLive) hStarted
  refine wp_tryCatch.mpr (wp_mono (wp_send rfl hs h.daemonTalk ?_)
    (fun _ _ _ => trivial) (fun _ _ _ => trivial))
  exact fun packet hPacket => (h.sends hPacket hCancel).daemonTalk

theorem wp_daemon_checkCancelled (hs : s.view .daemon = v) (h : Talking start c v)
    (hStarted : c ≠ .awaitingStart) :
    wp (partySetting .daemon (DaemonTalk start)) (fun _ s' => s'.view .daemon = v)
      (fun _ _ => True) ((daemonClient rounds).checkCancelled c) s := by
  unfold VerifierClient.checkCancelled
  refine wp_bind.mpr (wp_party_observe hs h.daemonTalk fun s₁ i hs₁ => ⟨?_, nofun⟩)
  rintro _ ⟨⟩
  by_cases hStop : i.stop = true
  · rw [if_pos hStop]
    exact wp_seq_any (wp_daemon_sendCancel rounds hs₁ h hStarted) (fun _ _ _ => trivial)
  rw [if_neg hStop]
  refine wp_bind.mpr (wp_party_observe hs₁ h.daemonTalk fun s₂ i₂ hs₂ =>
    ⟨?_, fun _ _ => trivial⟩)
  intro cancelled _
  by_cases hCancelled : cancelled = true
  · rw [if_pos hCancelled]
    exact wp_seq_any (wp_daemon_sendCancel rounds hs₂ h hStarted) (fun _ _ _ => trivial)
  rw [if_neg hCancelled]
  exact hs₂

/-- What a round of the client leaves: it talks on, or the verification is complete. -/
def AfterServiceRound (start : StartVerification)
    (r : VerifierConversationState ⊕ VerificationResult) (s : System) : Prop :=
  r.elim (fun c => c = .verifying ∧ Talking start .verifying (s.view .daemon))
    (fun result => Talking start (.completed result) (s.view .daemon))

theorem wp_daemon_handleMessage {message : VerifierMessage} (hs : s.view .daemon = v)
    (h : Talking start c v)
    (hNext : advanceVerifierConversation .verifying .pamVerifier message = .ok c) :
    wp (partySetting .daemon (DaemonTalk start)) (AfterServiceRound start)
      (fun _ _ => True) ((daemonClient rounds).handleMessage message c) s := by
  unfold VerifierClient.handleMessage
  cases message with
  | status status =>
    cases hNext
    refine wp_bind.mpr (wp_party_observe hs h.daemonTalk fun s₁ i hs₁ =>
      ⟨fun _ _ => ⟨rfl, hs₁ ▸ h⟩, fun _ _ => trivial⟩)
  | secretRequired required =>
    cases hNext
    refine wp_bind.mpr (wp_party_observe hs h.daemonTalk fun s₁ i hs₁ =>
      ⟨?_, fun _ _ => trivial⟩)
    intro secret _
    refine wp_seq_any (wp_daemon_checkCancelled rounds hs₁ h nofun) ?_
    intro _ s₂ hs₂
    have hAnswers : ∀ packet, encodeVerifierMessage (.secretResponse secret) = .ok packet →
        Talking start .verifying (v.1 ++ [.sent .outer .daemon packet], v.2) :=
      fun packet hPacket => h.sends hPacket rfl
    refine wp_seq_any (wp_send rfl hs₂ h.daemonTalk
      fun packet hPacket => (hAnswers packet hPacket).daemonTalk) ?_
    rintro _ s₃ ⟨packet, hPacket, hs₃⟩
    exact ⟨rfl, hs₃ ▸ hAnswers packet hPacket⟩
  | complete result =>
    cases hNext
    subst hs
    exact h
  | start start => cases hNext
  | secretResponse secret => cases hNext
  | cancel => cases hNext

theorem wp_daemon_serviceRound (hs : s.view .daemon = v) (h : Talking start .verifying v) :
    wp (partySetting .daemon (DaemonTalk start)) (AfterServiceRound start)
      (fun _ _ => True) ((daemonClient rounds).serviceRound .verifying) s := by
  unfold VerifierClient.serviceRound
  refine wp_seq_any (wp_daemon_checkCancelled rounds hs h nofun) ?_
  intro _ s₁ hs₁
  refine wp_bind.mpr (wp_party_observe hs₁ h.daemonTalk fun s₂ i hs₂ => ⟨?_, nofun⟩)
  rintro _ ⟨⟩
  by_cases hExpired : i.expired = true
  · rw [if_pos hExpired]
    exact wp_seq_any (wp_daemon_sendCancel rounds hs₂ h nofun) (fun _ _ _ => trivial)
  rw [if_neg hExpired]
  refine wp_seq_any (wp_poll hs₂ h.daemonTalk) ?_
  intro readiness s₃ hs₃
  cases readiness with
  | nothing => exact ⟨rfl, hs₃ ▸ h⟩
  | hungUp => trivial
  | readable =>
    refine wp_seq_any (wp_receive rounds rfl hs₃ h.daemonTalk
      (fun _ _ _ hPacket hNext => (h.receives hPacket hNext).daemonTalk)
      (fun _ hUnfit => h.refuses hUnfit)) ?_
    rintro ⟨message, next⟩ s₄ ⟨packet, hPacket, hNext, hs₄⟩
    exact wp_daemon_handleMessage rounds hs₄ (h.receives hPacket hNext) hNext

/-- **The daemon's client follows the protocol**, and when it returns a result, its
conversation was completed with that result. -/
theorem wp_runVerifierService_talk (hs : (s.view .daemon).1 = []) :
    wp (partySetting .daemon (DaemonTalk start))
      (fun result s' => Talking start (.completed result) (s'.view .daemon)) (fun _ _ => True)
      (runVerifierService rounds start) s := by
  have hSilent : DaemonTalk start (s.view .daemon) := .inl hs
  unfold runVerifierService VerifierClient.runVerifierService
  refine wp_bind.mpr (wp_party_observe rfl hSilent fun s₁ i hs₁ => ⟨?_, nofun⟩)
  rintro _ ⟨⟩
  by_cases hStop : i.stop = true
  · rw [if_pos hStop]
    trivial
  rw [if_neg hStop]
  refine wp_bind.mpr (wp_party_observe hs₁ hSilent fun s₂ i₂ hs₂ => ⟨?_, fun _ _ => trivial⟩)
  intro cancelled _
  by_cases hCancelled : cancelled = true
  · rw [if_pos hCancelled]
    trivial
  rw [if_neg hCancelled]
  refine wp_bind.mpr (wp_party_observe hs₂ hSilent fun s₃ i₃ hs₃ =>
    ⟨fun _ _ => ?_, fun _ _ => trivial⟩)
  have hStarts : ∀ packet, encodeVerifierMessage (.start start) = .ok packet →
      Talking start .verifying ((s.view .daemon).1 ++ [.sent .outer .daemon packet],
        (s.view .daemon).2) := by
    intro packet hPacket
    rw [hs]
    exact ⟨⟨packet, [], hPacket, rfl⟩, Conversation.nil.sent hPacket rfl⟩
  refine wp_seq_any (wp_send rfl hs₃ hSilent
    fun packet hPacket => (hStarts packet hPacket).daemonTalk) ?_
  rintro _ s₄ ⟨packet, hPacket, hs₄⟩
  -- The conversation is back at `verifying` at the top of every round.
  refine wp_loop (fun c s' => c = .verifying ∧ Talking start .verifying (s'.view .daemon))
    trivial ?_ rounds ⟨rfl, hs₄ ▸ hStarts packet hPacket⟩
  rintro _ s₅ ⟨rfl, hs₅⟩
  exact wp_daemon_serviceRound rounds rfl hs₅

end Daemon

/-! ## The broker -/

/-- The packet that says that the user was verified. -/
def successPacket : Bytes := setHeader .complete [VerificationResult.success.value]

theorem encode_success : encodeVerifierMessage (.complete .success) = .ok successPacket := rfl

theorem eq_success_of_encode {message : VerifierMessage}
    (h : encodeVerifierMessage message = .ok successPacket) : message = .complete .success := by
  have hDecodes := encode_iff_decode.mp h
  rw [encode_iff_decode.mp encode_success] at hDecodes
  exact (Except.ok.inj hDecodes).symm

/-- What the broker has seen when it reports a success: a peer with the daemon's uid, a request
whose session was authorized before the worker was started, a worker that completed the
verification at a time when each prompt that had come from it was answered, its exit with
status 0, and the same session, authorized once more. -/
def Checked (daemonUid : UInt32) (start : StartVerification) (t : History) : Prop :=
  ∃ peer startPacket before username exchange after,
    t = [.peer peer, .received .outer .daemon startPacket,
        .queried start.sessionId (some before), .spawned username] ++ exchange ++
      [.received .inner .pamVerifier successPacket, .reaped (.exited 0),
        .queried start.sessionId (some after), .sent .outer .pamVerifier successPacket] ∧
    authorizeVerifierPeer peer daemonUid = .ok () ∧
    encodeVerifierMessage (.start start) = .ok startPacket ∧
    authorizeVerificationSession start before = .ok () ∧
    authorizeVerificationSession start after = .ok () ∧
    Conversation .inner exchange (some .verifying)

/-- How the broker talks. -/
structure BrokerTalk (daemonUid : UInt32) (v : View) : Prop where
  outer : ∃ o, Conversation .outer v.1 o
  inner : ∃ o, Conversation .inner v.1 o
  checked : .sent .outer .pamVerifier successPacket ∈ v.1 → ∃ start, Checked daemonUid start v.1

/-- The broker runs the process to its end with `Q`, unless it throws. -/
abbrev BrokerEnds {α : Type} (daemonUid : UInt32) (Q : α → System → Prop) (p : PartyProc α)
    (s : System) : Prop :=
  wp (partySetting .broker (BrokerTalk daemonUid)) Q (fun _ _ => True) p s

/-- The broker is between the two conversations, in the states `outer` and `inner`; no success
was reported, and what it did since `base` has taken the inner one from its beginning. -/
structure Relaying (base : History) (outer inner : VerifierConversationState) (v : View) : Prop where
  since : ∃ exchange, v.1 = base ++ exchange ∧ Conversation .inner exchange (some inner)
  innerTalk : Conversation .inner v.1 (some inner)
  outerTalk : Conversation .outer v.1 (some outer)
  state : v.2 = outer
  unfinished : .sent .outer .pamVerifier successPacket ∉ v.1

namespace Relaying

variable {daemonUid : UInt32} {base : History} {outer inner next : VerifierConversationState}
  {v : View} {message : VerifierMessage} {packet : Bytes}

section

variable (h : Relaying base outer inner v)
include h

theorem brokerTalk : BrokerTalk daemonUid v where
  outer := ⟨_, h.outerTalk⟩
  inner := ⟨_, h.innerTalk⟩
  checked := fun hSuccess => absurd hSuccess h.unfinished

theorem unfinished_snoc {e : Happening} (he : e ≠ .sent .outer .pamVerifier successPacket) :
    .sent .outer .pamVerifier successPacket ∉ v.1 ++ [e] := by
  intro hMem
  rcases List.mem_append.mp hMem with hMem | hMem
  · exact h.unfinished hMem
  · exact he (List.mem_singleton.mp hMem).symm

theorem since_snoc (e : Happening)
    (hInner : ∀ t, Conversation .inner t (some inner) → Conversation .inner (t ++ [e]) (some next)) :
    ∃ exchange, v.1 ++ [e] = base ++ exchange ∧ Conversation .inner exchange (some next) := by
  obtain ⟨exchange, hEq, hExchange⟩ := h.since
  exact ⟨exchange ++ [e], by rw [hEq, List.append_assoc], hInner exchange hExchange⟩

theorem tells (hMessage : message ≠ .complete .success)
    (hPacket : encodeVerifierMessage message = .ok packet)
    (hNext : advanceVerifierConversation outer .pamVerifier message = .ok next) :
    Relaying base next inner (v.1 ++ [.sent .outer .pamVerifier packet], next) where
  since := h.since_snoc _ fun _ hTalk => hTalk.silent rfl
  innerTalk := h.innerTalk.silent rfl
  outerTalk := h.outerTalk.sent hPacket hNext
  state := rfl
  unfinished := h.unfinished_snoc fun hEq => by
    cases hEq
    exact hMessage (eq_success_of_encode hPacket)

theorem hears (hPacket : encodeVerifierMessage message = .ok packet)
    (hNext : advanceVerifierConversation outer .daemon message = .ok next) :
    Relaying base next inner (v.1 ++ [.received .outer .daemon packet], next) where
  since := h.since_snoc _ fun _ hTalk => hTalk.silent rfl
  innerTalk := h.innerTalk.silent rfl
  outerTalk := h.outerTalk.received hPacket hNext
  state := rfl
  unfinished := h.unfinished_snoc nofun

theorem orders (hPacket : encodeVerifierMessage message = .ok packet)
    (hNext : advanceVerifierConversation inner .daemon message = .ok next) :
    Relaying base outer next (v.1 ++ [.sent .inner .daemon packet], v.2) where
  since := h.since_snoc _ fun _ hTalk => hTalk.sent hPacket hNext
  innerTalk := h.innerTalk.sent hPacket hNext
  outerTalk := h.outerTalk.silent rfl
  state := h.state
  unfinished := h.unfinished_snoc nofun

theorem learns (hPacket : encodeVerifierMessage message = .ok packet)
    (hNext : advanceVerifierConversation inner .pamVerifier message = .ok next) :
    Relaying base outer next (v.1 ++ [.received .inner .pamVerifier packet], v.2) where
  since := h.since_snoc _ fun _ hTalk => hTalk.received hPacket hNext
  innerTalk := h.innerTalk.received hPacket hNext
  outerTalk := h.outerTalk.silent rfl
  state := h.state
  unfinished := h.unfinished_snoc nofun

/-- Something that is no packet. -/
theorem notes {e : Happening} (hOuter : e.onLink .outer = false)
    (hInner : e.onLink .inner = false) : Relaying base outer inner (v.1 ++ [e], v.2) where
  since := h.since_snoc _ fun _ hTalk => hTalk.silent hInner
  innerTalk := h.innerTalk.silent hInner
  outerTalk := h.outerTalk.silent hOuter
  state := h.state
  unfinished := h.unfinished_snoc fun hEq => by
    subst hEq
    cases hOuter

theorem refuses_outer
    (hLive : verifierConversationIsTerminal outer = false) (hUnfit : Unfit outer .daemon packet) :
    BrokerTalk daemonUid (v.1 ++ [.refused .outer .daemon packet], v.2) where
  outer := ⟨_, h.outerTalk.refused hLive hUnfit⟩
  inner := ⟨_, h.innerTalk.silent rfl⟩
  checked := fun hSuccess => absurd hSuccess (h.unfinished_snoc nofun)

end

theorem refuses_inner (h : Relaying base outer .verifying v)
    (hUnfit : Unfit .verifying .pamVerifier packet) :
    BrokerTalk daemonUid (v.1 ++ [.refused .inner .pamVerifier packet], v.2) where
  outer := ⟨_, h.outerTalk.silent rfl⟩
  inner := ⟨_, h.innerTalk.refused rfl hUnfit⟩
  checked := fun hSuccess => absurd hSuccess (h.unfinished_snoc nofun)

end Relaying

section Broker

variable {daemonUid : UInt32} {base : History} {outer inner next : VerifierConversationState}
  {s : System} {v : View} {message : VerifierMessage} (rounds : Nat)

theorem wp_tellDaemon (hs : s.view .broker = v) (h : Relaying base outer inner v)
    (hMessage : message ≠ .complete .success)
    (hNext : advanceVerifierConversation outer .pamVerifier message = .ok next) :
    BrokerEnds daemonUid (fun _ s' => Relaying base next inner (s'.view .broker))
      (DaemonConversation.sendFromVerifier message) s := by
  have hState := h.state
  refine wp_mono (wp_sendAsVerifier rfl hs h.brokerTalk ?_ ?_) ?_ (fun _ _ _ => trivial)
  · intro packet next' hPacket hNext'
    exact (h.tells hMessage hPacket (hState ▸ hNext')).brokerTalk
  · intro packet e _ hError
    rw [hState, hNext] at hError
    cases hError
  · rintro _ s' ⟨packet, next', hPacket, hNext', hs'⟩
    rw [hState, hNext] at hNext'
    cases hNext'
    rw [hs']
    exact h.tells hMessage hPacket hNext

theorem wp_hearDaemon (hs : s.view .broker = v) (h : Relaying base outer inner v)
    (hLive : verifierConversationIsTerminal outer = false) :
    BrokerEnds daemonUid
      (fun message s' => ∃ next packet, encodeVerifierMessage message = .ok packet ∧
        advanceVerifierConversation outer .daemon message = .ok next ∧
        s'.view .broker = (v.1 ++ [.received .outer .daemon packet], next) ∧
        Relaying base next inner (s'.view .broker))
      (DaemonConversation.receiveFromDaemon rounds) s := by
  have hState := h.state
  refine wp_mono (wp_receiveAsVerifier rounds rfl hs h.brokerTalk ?_ ?_) ?_ (fun _ _ _ => trivial)
  · intro message packet next hPacket hNext
    exact (h.hears hPacket (hState ▸ hNext)).brokerTalk
  · intro packet hUnfit
    exact h.refuses_outer hLive (hState ▸ hUnfit)
  · rintro message s' ⟨packet, next, hPacket, hNext, hs'⟩
    rw [hState] at hNext
    exact ⟨next, packet, hPacket, hNext, hs', hs' ▸ h.hears hPacket hNext⟩

theorem wp_requestSecret (required : SecretRequired) (hs : s.view .broker = v)
    (h : Relaying base .verifying inner v) :
    BrokerEnds daemonUid (fun _ s' => Relaying base .verifying inner (s'.view .broker))
      (DaemonConversation.requestSecret rounds required) s := by
  unfold DaemonConversation.requestSecret
  refine wp_seq_any (wp_tellDaemon hs h nofun rfl) ?_
  intro _ s₁ hs₁
  refine wp_seq_any (wp_hearDaemon rounds rfl hs₁ rfl) ?_
  rintro message s₂ ⟨next, packet, _, hNext, _, hs₂⟩
  cases message with
  | secretResponse secret =>
    cases hNext
    exact hs₂
  | cancel => trivial
  | start | status | secretRequired | complete => cases hNext

theorem wp_cancellationRequested (hs : s.view .broker = v) (h : Relaying base .verifying inner v) :
    BrokerEnds daemonUid (fun cancelled s' => if cancelled = true then
          ∃ outer, Relaying base outer inner (s'.view .broker)
        else s'.view .broker = v)
      (DaemonConversation.cancellationRequested rounds) s := by
  unfold DaemonConversation.cancellationRequested
  refine wp_bind.mpr (wp_party_observe hs h.brokerTalk fun s₁ i hs₁ => ⟨?_, nofun⟩)
  rintro _ ⟨⟩
  have hState : s₁.verifierState .outer = .verifying :=
    (verifierState_of_view .outer hs₁).trans h.state
  have hLive : ¬ verifierConversationIsTerminal (s₁.verifierState .outer) = true := by
    rw [hState]
    nofun
  rw [if_neg hLive]
  refine wp_seq_any (wp_poll hs₁ h.brokerTalk) ?_
  intro readiness s₂ hs₂
  cases readiness with
  | nothing => exact hs₂
  | hungUp => trivial
  | readable =>
    refine wp_seq_any (wp_hearDaemon rounds hs₂ h rfl) ?_
    rintro message s₃ ⟨next, packet, _, hNext, _, hs₃⟩
    cases message with
    | cancel => exact ⟨next, hs₃⟩
    | start | status | secretRequired | secretResponse | complete => cases hNext

/-- The broker logs something that is no packet. -/
theorem wp_note {e : Happening} {α : Type} {f : Input → System → Except Exn α}
    {Q : α → System → Prop} (hOwner : e.owner = some .broker) (hOuter : e.onLink .outer = false)
    (hInner : e.onLink .inner = false) (hs : s.view .broker = v) (h : Relaying base outer inner v)
    (hQ : ∀ s' a, s'.view .broker = (v.1 ++ [e], v.2) → Q a s') :
    BrokerEnds daemonUid Q (Proc.atomically fun i s => (f i s, s.log e)) s := by
  refine wp_party hs fun s' i hs' => ?_
  have hView : (s'.log e).view .broker = (v.1 ++ [e], v.2) := by rw [view_log hOwner, hs']
  refine ⟨writes_log hOwner ?_, hView ▸ (h.notes hOuter hInner).brokerTalk,
    fun a _ => hQ _ a hView, fun _ _ => trivial⟩
  intro link sender packet hTaken
  cases e with
  | received l sd p =>
    cases l with
    | outer => cases hOuter
    | inner => cases hInner
  | refused l sd p =>
    cases l with
    | outer => cases hOuter
    | inner => cases hInner
  | _ => cases hTaken

theorem wp_terminateAndReap (hs : s.view .broker = v) (h : Relaying base outer inner v) :
    BrokerEnds daemonUid (fun _ _ => True) terminateAndReap s :=
  wp_note (e := .terminated) rfl rfl rfl hs h fun _ _ _ => trivial

theorem wp_sendCancel (hs : s.view .broker = v) (h : Relaying base outer inner v)
    (hStarted : inner ≠ .awaitingStart) :
    BrokerEnds daemonUid (fun _ s' => ∃ inner, Relaying base outer inner (s'.view .broker))
      (sendCancel inner) s := by
  unfold sendCancel
  by_cases hLive : verifierConversationIsTerminal inner = true
  · rw [if_pos hLive]
    exact ⟨inner, hs ▸ h⟩
  rw [if_neg hLive]
  have hCancel := advance_cancel (eq_false_of_ne_true hLive) hStarted
  refine wp_tryCatch.mpr (wp_mono (wp_send rfl hs h.brokerTalk
    fun packet hPacket => (h.orders hPacket hCancel).brokerTalk) ?_ ?_)
  · rintro _ s' ⟨packet, hPacket, hs'⟩
    exact ⟨_, hs' ▸ h.orders hPacket hCancel⟩
  · intro _ s' hs'
    exact ⟨inner, hs' ▸ h⟩

/-- Where the loop over the worker stands: it talks on, or it has taken the completion. -/
def Told (base : History) (talk : VerifierConversationState × Option VerificationResult) (v : View) :
    Prop :=
  match talk.2 with
  | none => talk.1 = .verifying ∧ Relaying base .verifying .verifying v
  | some result => talk.1 = .completed result ∧ ∃ v₁ packet,
      Relaying base .verifying .verifying v₁ ∧
      encodeVerifierMessage (.complete result) = .ok packet ∧
      v = (v₁.1 ++ [.received .inner .pamVerifier packet], v₁.2)

variable {talk : VerifierConversationState × Option VerificationResult}

theorem Told.relaying (h : Told base talk v) :
    talk.1 ≠ .awaitingStart ∧ Relaying base .verifying talk.1 v := by
  obtain ⟨conversation, completion⟩ := talk
  cases completion with
  | none =>
    obtain ⟨rfl, hRelaying⟩ := h
    exact ⟨nofun, hRelaying⟩
  | some result =>
    obtain ⟨rfl, v₁, packet, hRelaying, hPacket, rfl⟩ := h
    exact ⟨nofun, hRelaying.learns hPacket rfl⟩

theorem wp_receiveMessage (hs : s.view .broker = v) (h : Relaying base .verifying .verifying v) :
    BrokerEnds daemonUid (fun talk s' => Told base talk (s'.view .broker))
      ((relay rounds).receiveMessage rounds .verifying) s := by
  unfold ProgramCallbacks.receiveMessage
  refine wp_seq_any (wp_receive rounds rfl hs h.brokerTalk
    (fun _ _ _ hPacket hNext => (h.learns hPacket hNext).brokerTalk)
    (fun _ hUnfit => h.refuses_inner hUnfit)) ?_
  rintro ⟨message, conversation⟩ s₁ ⟨packet, hPacket, hNext, hs₁⟩
  have h₁ := h.learns hPacket hNext
  cases message with
  | status status =>
    cases hNext
    refine wp_seq_any (wp_tellDaemon hs₁ h₁ nofun rfl) ?_
    exact fun _ s₂ hs₂ => ⟨rfl, hs₂⟩
  | secretRequired required =>
    cases hNext
    refine wp_seq_any (wp_requestSecret rounds required hs₁ h₁) ?_
    intro secret s₂ h₂
    refine wp_seq_any (wp_send rfl rfl h₂.brokerTalk
      fun packet hPacket => (h₂.orders hPacket rfl).brokerTalk) ?_
    rintro _ s₃ ⟨packet, hPacket, hs₃⟩
    exact ⟨rfl, hs₃ ▸ h₂.orders hPacket rfl⟩
  | complete result =>
    cases hNext
    exact ⟨rfl, v, packet, h, hPacket, hs₁⟩
  | start start => cases hNext
  | secretResponse secret => cases hNext
  | cancel => cases hNext

theorem wp_drain (h : Told base talk (s.view .broker)) :
    BrokerEnds daemonUid (fun talk s' => Told base talk (s'.view .broker))
      ((relay rounds).drain rounds talk.1 talk.2) s := by
  obtain ⟨conversation, completion⟩ := talk
  cases completion with
  | some result => exact h
  | none =>
    refine wp_loop (fun c s' => Told base (c, none) (s'.view .broker)) trivial ?_ rounds h
    rintro _ s₁ ⟨rfl, h₁⟩
    unfold ProgramCallbacks.drainRound
    refine wp_seq_any (wp_poll rfl h₁.brokerTalk) ?_
    intro readiness s₂ hs₂
    cases readiness with
    | nothing => exact ⟨rfl, hs₂ ▸ h₁⟩
    | hungUp => exact ⟨rfl, hs₂ ▸ h₁⟩
    | readable =>
      refine wp_seq_any (wp_receiveMessage rounds hs₂ h₁) ?_
      rintro ⟨conversation, completion⟩ s₃ h₃
      cases completion with
      | none => exact h₃
      | some result => exact h₃

theorem wp_checkCancelled {c : VerifierConversationState} (hs : s.view .broker = v)
    (h : Relaying base .verifying c v) (hStarted : c ≠ .awaitingStart) :
    BrokerEnds daemonUid (fun _ s' => s'.view .broker = v) ((relay rounds).checkCancelled c) s := by
  unfold ProgramCallbacks.checkCancelled
  -- The broker's stop token is never stopped.
  refine wp_bind.mpr ((wp_done false).mpr ?_)
  rw [if_neg Bool.false_ne_true]
  refine wp_seq_any (wp_cancellationRequested rounds hs h) ?_
  intro cancelled s₁ hs₁
  by_cases hCancelled : cancelled = true
  · rw [if_pos hCancelled] at hs₁ ⊢
    obtain ⟨outer, h₁⟩ := hs₁
    refine wp_seq_any (wp_sendCancel rfl h₁ hStarted) ?_
    rintro _ s₂ ⟨inner, h₂⟩
    exact wp_seq_any (wp_terminateAndReap rfl h₂) (fun _ _ _ => trivial)
  · rw [if_neg hCancelled] at hs₁ ⊢
    exact hs₁

theorem wp_childPoll (hs : s.view .broker = v) (h : Relaying base outer inner v) :
    BrokerEnds daemonUid (fun exit s' => s'.view .broker =
        (v.1 ++ (exit.map fun code => Happening.reaped (.exited code)).toList, v.2))
      childPoll s := by
  refine wp_party hs fun s' i hs' => ?_
  have hJ : BrokerTalk daemonUid (s'.view .broker) := hs' ▸ h.brokerTalk
  have hNone : s'.view .broker = (v.1 ++ [], v.2) := by rw [hs', List.append_nil]
  have hReaped : ∀ status, (s'.log (.reaped status)).view .broker =
      (v.1 ++ [.reaped status], v.2) := by
    intro status
    rw [view_log rfl, hs']
  have hTalk : ∀ status, BrokerTalk daemonUid ((s'.log (.reaped status)).view .broker) :=
    fun status => hReaped status ▸ (h.notes rfl rfl).brokerTalk
  have hWrites : ∀ status, Writes .broker s' (s'.log (.reaped status)) :=
    fun status => writes_log rfl nofun
  by_cases hFails : i.fails = true
  · rw [if_pos hFails]
    exact ⟨.refl _ s', hJ, nofun, fun _ _ => trivial⟩
  rw [if_neg hFails]
  by_cases hInterrupted : i.interrupted = true
  · rw [if_pos hInterrupted]
    refine ⟨.refl _ s', hJ, ?_, nofun⟩
    rintro _ ⟨⟩
    exact hNone
  rw [if_neg hInterrupted]
  split
  · refine ⟨.refl _ s', hJ, ?_, nofun⟩
    rintro _ ⟨⟩
    exact hNone
  · refine ⟨hWrites _, hTalk _, ?_, nofun⟩
    rintro _ ⟨⟩
    exact hReaped _
  · exact ⟨hWrites _, hTalk _, nofun, fun _ _ => trivial⟩
  · exact ⟨hWrites _, hTalk _, nofun, fun _ _ => trivial⟩

/-- The worker is done: its result was taken, and it exited as the result says. -/
def Concluded (base : History) (result : VerificationResult) (v : View) : Prop :=
  ∃ v₁ packet code, Relaying base .verifying .verifying v₁ ∧
    encodeVerifierMessage (.complete result) = .ok packet ∧
    (code == 0) = (result == .success) ∧
    v = (v₁.1 ++ [.received .inner .pamVerifier packet, .reaped (.exited code)], v₁.2)

theorem wp_programRound (h : Told base talk (s.view .broker)) : BrokerEnds daemonUid
      (fun r s' => r.elim (fun talk => Told base talk (s'.view .broker))
        (fun result => Concluded base result (s'.view .broker)))
      ((relay rounds).programRound rounds talk) s := by
  unfold ProgramCallbacks.programRound
  refine wp_seq_any (wp_drain rounds h) ?_
  rintro ⟨conversation, completion⟩ s₁ h₁
  obtain ⟨hStarted, hRelaying⟩ := h₁.relaying
  refine wp_seq_any (wp_checkCancelled rounds rfl hRelaying hStarted) ?_
  intro _ s₂ hs₂
  refine wp_seq_any (wp_childPoll hs₂ hRelaying) ?_
  intro exit s₃ hs₃
  cases exit with
  | some code =>
    refine wp_bind.mpr (wp_ofExcept.mpr ⟨?_, fun _ _ => trivial⟩)
    intro result hResult
    cases completion with
    | none => cases hResult
    | some result' =>
      simp only [ProgramCallbacks.conclude] at hResult
      split at hResult
      · cases hResult
      · rename_i hAgree
        cases hResult
        obtain ⟨-, v₁, packet, hBefore, hPacket, hView⟩ := h₁
        refine ⟨v₁, packet, code, hBefore, hPacket, by simpa using hAgree, ?_⟩
        rw [hs₃, hView]
        simp
  | none =>
    have hs₃ : s₃.view .broker = s₁.view .broker := by
      rw [hs₃]
      simp
    refine wp_bind.mpr (wp_party_observe hs₃ hRelaying.brokerTalk fun s₄ i hs₄ => ⟨?_, nofun⟩)
    rintro _ ⟨⟩
    by_cases hExpired : i.expired = true
    · rw [if_pos hExpired]
      refine wp_seq_any (wp_sendCancel hs₄ hRelaying hStarted) ?_
      rintro _ s₅ ⟨inner, h₅⟩
      exact wp_seq_any (wp_terminateAndReap rfl h₅) (fun _ _ _ => trivial)
    · rw [if_neg hExpired]
      change Told base (conversation, completion) (s₄.view .broker)
      rw [hs₄]
      exact h₁

theorem wp_runCancellableVerifierProgram (username : Bytes) (start : StartVerification)
    (hs : s.view .broker = (base, .verifying)) (hInner : Conversation .inner base (some .awaitingStart))
    (hOuter : Conversation .outer base (some .verifying))
    (hUnfinished : .sent .outer .pamVerifier successPacket ∉ base) :
    BrokerEnds daemonUid
      (fun result s' => Concluded (base ++ [.spawned username]) result (s'.view .broker))
      ((relay rounds).runCancellableVerifierProgram rounds username start) s := by
  have h : Relaying base .verifying .awaitingStart (base, .verifying) :=
    ⟨⟨[], (List.append_nil _).symm, .nil⟩, hInner, hOuter, rfl, hUnfinished⟩
  unfold ProgramCallbacks.runCancellableVerifierProgram
  refine wp_bind.mpr ((wp_done false).mpr ?_)
  rw [if_neg Bool.false_ne_true]
  refine wp_seq_any (wp_cancellationRequested rounds hs h) ?_
  intro cancelled s₁ hs₁
  by_cases hCancelled : cancelled = true
  · rw [if_pos hCancelled]
    trivial
  rw [if_neg hCancelled] at hs₁ ⊢
  refine wp_bind.mpr (wp_party_observe hs₁ h.brokerTalk fun s₂ i hs₂ =>
    ⟨fun _ _ => ?_, fun _ _ => trivial⟩)
  have hSpawned : Relaying (base ++ [.spawned username]) .verifying .awaitingStart
      (base ++ [.spawned username], .verifying) :=
    ⟨⟨[], (List.append_nil _).symm, .nil⟩, hInner.silent rfl, hOuter.silent rfl, rfl,
      h.unfinished_snoc nofun⟩
  refine wp_bind.mpr (wp_party hs₂ fun s₃ i₃ hs₃ => ?_)
  by_cases hFails : i₃.fails = true
  · rw [if_pos hFails]
    exact ⟨.refl _ s₃, hs₃ ▸ h.brokerTalk, nofun, fun _ _ => trivial⟩
  rw [if_neg hFails]
  have hView : (s₃.log (.spawned username)).view .broker =
      (base ++ [.spawned username], .verifying) := by rw [view_log rfl, hs₃]
  refine ⟨writes_log rfl nofun, hView ▸ hSpawned.brokerTalk, fun _ _ => ?_, nofun⟩
  refine wp_seq_any (wp_send rfl hView hSpawned.brokerTalk
    fun packet hPacket => (hSpawned.orders hPacket rfl).brokerTalk) ?_
  rintro _ s₄ ⟨packet, hPacket, hs₄⟩
  refine wp_loop (fun talk s' => Told (base ++ [.spawned username]) talk (s'.view .broker))
    trivial ?_ rounds ⟨rfl, hs₄ ▸ hSpawned.orders hPacket rfl⟩
  intro talk s₅ h₅
  exact wp_programRound rounds h₅

theorem wp_authorizeSession (start : StartVerification) (hs : s.view .broker = v)
    (h : Relaying base outer inner v) :
    wp (partySetting .broker (BrokerTalk daemonUid))
      (fun _ s' => ∃ answer, authorizeVerificationSession start answer = .ok () ∧
        s'.view .broker = (v.1 ++ [.queried start.sessionId (some answer)], v.2))
      (fun _ s' => Relaying base outer inner (s'.view .broker)) (authorizeSession start) s := by
  unfold authorizeSession
  refine wp_bind.mpr (wp_party hs fun s₁ i hs₁ => ?_)
  have hView : (s₁.log (.queried start.sessionId i.session.toOption)).view .broker =
      (v.1 ++ [.queried start.sessionId i.session.toOption], v.2) := by rw [view_log rfl, hs₁]
  have hNoted := h.notes (e := .queried start.sessionId i.session.toOption) rfl rfl
  refine ⟨writes_log rfl nofun, hView ▸ hNoted.brokerTalk, ?_, fun _ _ => hView ▸ hNoted⟩
  intro answer hAnswer
  refine wp_ofExcept.mpr ⟨fun _ hOk => ⟨answer, hOk, ?_⟩, fun _ _ => hView ▸ hNoted⟩
  rw [hView, show i.session = .ok answer from hAnswer]
  rfl

theorem wp_completeWithError {α : Type} (e : Exn) {Q : α → System → Prop}
    (hs : s.view .broker = v) (h : Relaying base .verifying inner v) :
    BrokerEnds daemonUid Q (completeWithError e) s :=
  wp_seq_any (wp_tellDaemon hs h nofun rfl) (fun _ _ _ => trivial)

theorem Concluded.relaying {result : VerificationResult} (h : Concluded base result v) :
    Relaying base .verifying (.completed result) v := by
  obtain ⟨v₁, packet, code, hRelaying, hPacket, -, rfl⟩ := h
  have hLearned := (hRelaying.learns hPacket rfl).notes (e := .reaped (.exited code)) rfl rfl
  simpa using hLearned

theorem wp_completeSuccess {peer : VerifierPeerCredentials} {start : StartVerification}
    {startPacket username : Bytes} {before after : LoginSessionProperties} {v₁ : View}
    (hPeer : authorizeVerifierPeer peer daemonUid = .ok ())
    (hStart : encodeVerifierMessage (.start start) = .ok startPacket)
    (hBefore : authorizeVerificationSession start before = .ok ())
    (hAfter : authorizeVerificationSession start after = .ok ())
    (h₁ : Concluded [.peer peer, .received .outer .daemon startPacket,
      .queried start.sessionId (some before), .spawned username] .success v₁)
    (hs : s.view .broker = (v₁.1 ++ [.queried start.sessionId (some after)], v₁.2)) :
    BrokerEnds daemonUid (fun _ _ => True) (DaemonConversation.complete .success) s := by
  have hRelaying := h₁.relaying.notes (e := .queried start.sessionId (some after)) rfl rfl
  refine wp_mono (wp_sendAsVerifier rfl hs hRelaying.brokerTalk ?_ ?_) (fun _ _ _ => trivial)
    (fun _ _ _ => trivial)
  · intro packet next hPacket hNext
    cases hPacket
    rw [hRelaying.state] at hNext
    refine ⟨⟨_, hRelaying.outerTalk.sent encode_success hNext⟩, ⟨_, hRelaying.innerTalk.silent rfl⟩,
      fun _ => ⟨start, ?_⟩⟩
    obtain ⟨v₂, packet, code, hTalk, hComplete, hCode, rfl⟩ := h₁
    cases hComplete
    obtain ⟨exchange, hSince, hExchange⟩ := hTalk.since
    have hZero : code = 0 := by simpa using hCode
    subst hZero
    refine ⟨peer, startPacket, before, username, exchange, after, ?_, hPeer, hStart, hBefore, hAfter,
      hExchange⟩
    simp [hSince, successPacket]
  · intro packet e _ hError
    rw [hRelaying.state] at hError
    cases hError

/-- **The broker follows the protocol on both links and reports only authentic successes.** -/
theorem wp_runPamVerifierConnection (hs : s.view .broker = ([], .awaitingStart)) :
    BrokerEnds daemonUid (fun _ _ => True) (runPamVerifierConnection rounds daemonUid) s := by
  have h : Relaying [] .awaitingStart .awaitingStart ([], .awaitingStart) :=
    ⟨⟨[], rfl, .nil⟩, .nil, .nil, rfl, List.not_mem_nil⟩
  unfold runPamVerifierConnection
  refine wp_bind.mpr (wp_party hs fun s₁ i hs₁ => ?_)
  by_cases hFails : i.fails = true
  · rw [if_pos hFails]
    exact ⟨.refl _ s₁, hs₁ ▸ h.brokerTalk, nofun, fun _ _ => trivial⟩
  rw [if_neg hFails]
  by_cases hPid : i.credentials.pid ≤ 0
  · rw [if_pos hPid]
    exact ⟨.refl _ s₁, hs₁ ▸ h.brokerTalk, nofun, fun _ _ => trivial⟩
  rw [if_neg hPid]
  have hView₁ : (s₁.log (.peer i.credentials)).view .broker =
      ([.peer i.credentials], .awaitingStart) := by rw [view_log rfl, hs₁, List.nil_append]
  have h₁ := h.notes (e := .peer i.credentials) rfl rfl
  refine ⟨writes_log rfl nofun, hView₁ ▸ h₁.brokerTalk, ?_, nofun⟩
  rintro peer ⟨⟩
  refine wp_bind.mpr (wp_ofExcept.mpr ⟨fun _ hPeer => ?_, fun _ _ => trivial⟩)
  refine wp_bind.mpr (wp_seq_any (wp_hearDaemon rounds hView₁ h₁ rfl) ?_)
  rintro message s₂ ⟨next, startPacket, hStart, hNext, hView₂, h₂⟩
  cases message with
  | start start =>
    cases hNext
    rw [hView₂] at h₂
    refine wp_bind.mpr (wp_tryCatch.mpr (wp_seq
      (wp_authorizeSession start hView₂ h₂) ?_ fun e s' h' => wp_completeWithError e rfl h'))
    rintro _ s₃ ⟨before, hBefore, hView₃⟩
    have h₃ := h₂.notes (e := .queried start.sessionId (some before)) rfl rfl
    refine wp_party_observe hView₃ h₃.brokerTalk fun s₄ i₄ hs₄ =>
      ⟨fun username _ => ?_, fun e _ => wp_completeWithError e hs₄ h₃⟩
    -- Whatever is thrown from here on, nothing else is sent.
    refine wp_tryCatch.mpr (wp_seq
      (wp_runCancellableVerifierProgram rounds username start hs₄ ?_ h₃.outerTalk h₃.unfinished)
      ?_ (fun e s' _ => by cases e <;> trivial))
    · exact (((Conversation.nil.silent rfl).silent rfl).silent rfl)
    intro result s₅ h₅
    by_cases hSuccess : result = .success
    · subst hSuccess
      rw [if_pos rfl]
      refine wp_bind.mpr (wp_tryCatch.mpr (wp_mono
        (wp_authorizeSession start rfl h₅.relaying) ?_ ?_))
      · rintro _ s₆ ⟨after, hAfter, hView₆⟩
        exact wp_mono (wp_completeSuccess hPeer hStart hBefore hAfter h₅ hView₆)
          (fun _ _ _ => trivial) (fun e s' _ => by cases e <;> trivial)
      · intro e s₆ h₆
        exact wp_mono (wp_completeWithError e rfl h₆) (fun _ _ h => h)
          (fun e s' _ => by cases e <;> trivial)
    · rw [if_neg hSuccess]
      refine wp_mono (wp_tellDaemon rfl h₅.relaying ?_ rfl) (fun _ _ _ => trivial)
        (fun e s' _ => by cases e <;> trivial)
      rintro ⟨⟩
      exact hSuccess rfl
  | cancel | status | secretRequired | secretResponse | complete => cases hNext

end Broker

end VAuth.Verifier
