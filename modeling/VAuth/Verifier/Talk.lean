import VAuth.Verifier.Network

/-!
# What one party says and hears

A party is verified on its own: nobody else changes its transcript or the state it keeps, and
each of its steps adds at most what the party itself did. What a party says and hears on a
link is a `Conversation`: the messages in the order in which this end saw them, followed by
the automaton of the protocol, up to a packet that it refused. The conversations of the two
ends of a link differ in their order; the packets are the same.
-/

namespace VAuth.Verifier

/-! ## Histories -/

namespace History

theorem sentOn_append (h t : History) (link : Link) (sender : VerifierMessageSender) :
    sentOn (h ++ t) link sender = sentOn h link sender ++ sentOn t link sender :=
  List.filterMap_append

theorem takenOn_append (h t : History) (link : Link) (sender : VerifierMessageSender) :
    takenOn (h ++ t) link sender = takenOn h link sender ++ takenOn t link sender :=
  List.filterMap_append

theorem transcript_append (h t : History) (party : Party) :
    transcript (h ++ t) party = transcript h party ++ transcript t party :=
  List.filter_append ..

theorem transcript_of_owned {es : History} {p q : Party} (hOwned : ∀ e ∈ es, e.owner = some p)
    (hq : q ≠ p) : transcript es q = [] := by
  refine List.filter_eq_nil_iff.mpr fun e he => ?_
  rw [hOwned e he]
  simp [Ne.symm hq]

theorem sentOn_transcript (h : History) (link : Link) (sender : VerifierMessageSender) :
    sentOn (transcript h (link.source sender)) link sender = sentOn h link sender := by
  unfold sentOn transcript
  rw [List.filterMap_filter]
  congr 1
  funext e
  cases e with
  | sent l s packet =>
    by_cases hWire : l = link ∧ s = sender
    · obtain ⟨rfl, rfl⟩ := hWire
      simp [Happening.owner]
    · simp [Happening.sentOn?, hWire]
  | _ => simp [Happening.sentOn?]

theorem takenOn_transcript (h : History) (link : Link) (sender : VerifierMessageSender) :
    takenOn (transcript h (link.target sender)) link sender = takenOn h link sender := by
  unfold takenOn transcript
  rw [List.filterMap_filter]
  congr 1
  funext e
  cases e with
  | received l s packet =>
    by_cases hWire : l = link ∧ s = sender
    · obtain ⟨rfl, rfl⟩ := hWire
      simp [Happening.owner]
    · simp [Happening.takenOn?, hWire]
  | refused l s packet =>
    by_cases hWire : l = link ∧ s = sender
    · obtain ⟨rfl, rfl⟩ := hWire
      simp [Happening.owner]
    · simp [Happening.takenOn?, hWire]
  | _ => simp [Happening.takenOn?]

/-- Taking the next packet off a wire keeps the order. -/
theorem Fifo.snoc {h : History} (hFifo : Fifo h) {e : Happening}
    (hNext : ∀ link sender packet, e.takenOn? link sender = some packet →
      h.next link sender = some packet) : Fifo (h ++ [e]) := by
  intro link sender
  have hPrefix := hFifo link sender
  rw [takenOn_append, sentOn_append]
  cases hTaken : e.takenOn? link sender with
  | none =>
    have hNone : takenOn [e] link sender = [] := by simp [takenOn, hTaken]
    rw [hNone, List.append_nil]
    exact hPrefix.trans (List.prefix_append _ _)
  | some packet =>
    have hSome : takenOn [e] link sender = [packet] := by simp [takenOn, hTaken]
    have hAt := hNext link sender packet hTaken
    obtain ⟨rest, hRest⟩ := hPrefix
    unfold next at hAt
    rw [← hRest, List.getElem?_append_right (Nat.le_refl _), Nat.sub_self] at hAt
    rw [hSome, ← hRest]
    cases rest with
    | nil => cases hAt
    | cons first rest =>
      cases hAt
      exact ⟨rest ++ sentOn [e] link sender, by simp⟩

end History

/-! ## Views -/

/-- The state of the conversation that a party keeps in an object. -/
def System.stateOf (s : System) : Party → VerifierConversationState
  | .daemon => .awaitingStart
  | .broker => s.verifierState .outer
  | .worker => s.verifierState .inner

abbrev View := History × VerifierConversationState

/-- What a party did, and the state it keeps. -/
def System.view (s : System) (p : Party) : View := (s.history.transcript p, s.stateOf p)

/-- A step that only adds what `p` itself did. -/
structure Writes (p : Party) (s s' : System) : Prop where
  history : ∃ es : History, s'.history = s.history ++ es ∧ ∀ e ∈ es, e.owner = some p
  state : ∀ q, q ≠ p → s'.stateOf q = s.stateOf q
  fifo : s.history.Fifo → s'.history.Fifo
  rejections : s'.rejections = s.rejections

theorem Writes.refl (p : Party) (s : System) : Writes p s s where
  history := ⟨[], (List.append_nil _).symm, nofun⟩
  state := fun _ _ => rfl
  fifo := id
  rejections := rfl

variable {s : System} {p : Party}

/-- The others do not see it. -/
theorem Writes.view {q : Party} {s' : System} (h : Writes p s s') (hq : q ≠ p) :
    s'.view q = s.view q := by
  obtain ⟨es, hHistory, hOwned⟩ := h.history
  unfold System.view
  rw [hHistory, History.transcript_append, History.transcript_of_owned hOwned hq, List.append_nil,
    h.state q hq]

theorem writes_log {e : Happening} (hOwner : e.owner = some p)
    (hNext : ∀ link sender packet, e.takenOn? link sender = some packet →
      s.history.next link sender = some packet) : Writes p s (s.log e) where
  history := ⟨[e], rfl, fun e' he' => by rw [List.mem_singleton.mp he', hOwner]⟩
  state := fun q _ => by cases q <;> rfl
  fifo := fun hFifo => hFifo.snoc hNext
  rejections := rfl

theorem Writes.setVerifierState {s' : System} (h : Writes p s s') {link : Link}
    (hp : link.target .daemon = p) (c : VerifierConversationState) :
    Writes p s (s'.setVerifierState link c) where
  history := h.history
  state := by
    intro q hq
    rw [← h.state q hq]
    cases q with
    | daemon => rfl
    | broker =>
      refine Function.update_of_ne ?_ c s'.verifierState
      rintro rfl
      exact hq hp
    | worker =>
      refine Function.update_of_ne ?_ c s'.verifierState
      rintro rfl
      exact hq hp
  fifo := h.fifo
  rejections := h.rejections

@[simp] theorem view_log {e : Happening} (hOwner : e.owner = some p) :
    (s.log e).view p = ((s.view p).1 ++ [e], (s.view p).2) := by
  refine Prod.ext ?_ ?_
  · change (s.history ++ [e]).transcript p = s.history.transcript p ++ [e]
    rw [History.transcript_append]
    simp [History.transcript, hOwner]
  · cases p <;> rfl

theorem view_setVerifierState {link : Link} (hp : link.target .daemon = p)
    (c : VerifierConversationState) : (s.setVerifierState link c).view p = ((s.view p).1, c) := by
  subst hp
  refine Prod.ext rfl ?_
  cases link
  · exact Function.update_self Link.outer c s.verifierState
  · exact Function.update_self Link.inner c s.verifierState

theorem verifierState_of_view (link : Link) {v : View} (h : s.view (link.target .daemon) = v) :
    s.verifierState link = v.2 := by
  subst h
  cases link <;> rfl

/-- The setting of a party whose own view always meets `J`. -/
def partySetting (p : Party) (J : View → Prop) : Proc.Setting System Input :=
  .among (fun s s' => s'.view p = s.view p) (fun _ _ => True)
    fun s s' => Writes p s s' ∧ J (s'.view p)

section Setting

variable {p : Party} {J : View → Prop} {s s' : System} {v : View} {α : Type}
  {Q : α → System → Prop} {E : Exn → System → Prop}

theorem view_of_rely (h : (partySetting p J).rely s s') : s'.view p = s.view p :=
  Proc.kept_by_others (J := fun s' => s'.view p = s.view p)
    (fun _ _ hStep hView => hStep.trans hView) h rfl

theorem wp_party {f : Input → System → Except Exn α × System} (hs : s.view p = v)
    (h : ∀ s' i, s'.view p = v → Writes p s' (f i s').2 ∧ J ((f i s').2.view p) ∧
      (∀ a, (f i s').1 = .ok a → Q a (f i s').2) ∧
      (∀ e, (f i s').1 = .error e → E e (f i s').2)) :
    Proc.wp (partySetting p J) Q E (Proc.atomically f) s := by
  rw [Proc.wp_atomically]
  intro s' hRely i _
  obtain ⟨hWrites, hJ, hOk, hError⟩ := h s' i ((view_of_rely hRely).trans hs)
  exact ⟨⟨hWrites, hJ⟩, hOk, hError⟩

theorem wp_party_observe {f : Input → System → Except Exn α} (hs : s.view p = v) (hJ : J v)
    (h : ∀ s' i, s'.view p = v → (∀ a, f i s' = .ok a → Q a s') ∧
      (∀ e, f i s' = .error e → E e s')) :
    Proc.wp (partySetting p J) Q E (Proc.observe f) s :=
  wp_party hs fun s' i hs' => ⟨.refl p s', hs' ▸ hJ, h s' i hs'⟩

end Setting

/-- **Runs of the parties.** Where the members of a team are verified one by one, each in its
own setting, all of it holds in every run of the team among others that leave the views of the
members alone. -/
theorem conduct_of_steps {K : Type} [DecidableEq K] {α : K → Type} {party : K → Party}
    (hParty : Function.Injective party) {J : K → View → Prop} {R : (k : K) → α k → View → Prop}
    {env : System → System → Prop} {team ps : Proc.Team System Input Exn α} {s₀ : System}
    (hTeam : ∀ k, Proc.wp (partySetting (party k) (J k)) (fun a s' => R k a (s'.view (party k)))
      (fun _ _ => True) (team k) s₀)
    (hEnv : ∀ s s', env s s' → (∀ k, s'.view (party k) = s.view (party k)) ∧
      (s.history.Fifo → s'.history.Fifo) ∧ s'.rejections = s.rejections)
    (hInit : s₀.history.Fifo ∧ s₀.rejections = [] ∧ ∀ k, J k (s₀.view (party k)))
    (hRun : Proc.Team.Steps env (fun _ _ _ => True) (team, s₀) (ps, s)) :
    s.history.Fifo ∧ s.rejections = [] ∧ (∀ k, J k (s.view (party k))) ∧
      ∀ k a, ps k = .done a → R k a (s.view (party k)) := by
  have hGuar : ∀ j k, j ≠ k → ∀ s s', Writes (party j) s s' ∧ J j (s'.view (party j)) →
      s'.view (party k) = s.view (party k) :=
    fun j k hjk s s' h => h.1.view fun hEq => hjk (hParty hEq).symm
  have hOthers : ∀ k s s', env s s' → s'.view (party k) = s.view (party k) :=
    fun k s s' h => (hEnv s s' h).1 k
  have hKept : s.history.Fifo ∧ s.rejections = [] ∧ ∀ k, J k (s.view (party k)) := by
    refine Proc.Team.invariant
      (J := fun s => s.history.Fifo ∧ s.rejections = [] ∧ ∀ k, J k (s.view (party k)))
      hGuar hOthers hTeam hInit ?_ ?_ hRun
    · rintro s s' hStep ⟨hFifo, hNone, hJ⟩
      obtain ⟨hView, hKeeps, hSame⟩ := hEnv s s' hStep
      exact ⟨hKeeps hFifo, hSame.trans hNone, fun k => hView k ▸ hJ k⟩
    · rintro j s s' ⟨hWrites, hOwn⟩ ⟨hFifo, hNone, hJ⟩
      refine ⟨hWrites.fifo hFifo, hWrites.rejections.trans hNone, fun k => ?_⟩
      by_cases hk : k = j
      · subst hk
        exact hOwn
      · rw [hWrites.view fun hEq => hk (hParty hEq)]
        exact hJ k
  refine ⟨hKept.1, hKept.2.1, hKept.2.2, fun k a hDone => ?_⟩
  exact Proc.Team.outcome hGuar hOthers hTeam hRun k
    (fun a s s' hView hR => by rw [hView]; exact hR) a hDone

/-! ## Conversations -/

def Happening.onLink (link : Link) : Happening → Bool
  | .sent l _ _ => l == link
  | .received l _ _ => l == link
  | .refused l _ _ => l == link
  | _ => false

/-- A packet that does not continue the conversation. -/
def Unfit (c : VerifierConversationState) (sender : VerifierMessageSender) (packet : Bytes) : Prop :=
  ∀ heard, receiveAndAdvance (some packet) c sender ≠ .ok heard

/-- When a side of a link waits for a packet of the other side: the daemon's only while it is
`verifying`, the verifier's until the conversation is over. -/
def Listens : VerifierMessageSender → VerifierConversationState → Prop
  | .pamVerifier, c => c = .verifying
  | .daemon, c => verifierConversationIsTerminal c = false

/-- A transcript whose packets on the link take the conversation to a state, or break it off:
the last one was refused. -/
inductive Conversation (link : Link) : History → Option VerifierConversationState → Prop
  | nil : Conversation link [] (some .awaitingStart)
  | sent {t : History} {c next : VerifierConversationState} {sender : VerifierMessageSender}
      {message : VerifierMessage} {packet : Bytes} (hTalk : Conversation link t (some c))
      (hPacket : encodeVerifierMessage message = .ok packet)
      (hNext : advanceVerifierConversation c sender message = .ok next) :
      Conversation link (t ++ [.sent link sender packet]) (some next)
  | received {t : History} {c next : VerifierConversationState} {sender : VerifierMessageSender}
      {message : VerifierMessage} {packet : Bytes} (hTalk : Conversation link t (some c))
      (hPacket : encodeVerifierMessage message = .ok packet)
      (hNext : advanceVerifierConversation c sender message = .ok next) :
      Conversation link (t ++ [.received link sender packet]) (some next)
  | refused {t : History} {c : VerifierConversationState} {sender : VerifierMessageSender}
      {packet : Bytes} (hTalk : Conversation link t (some c))
      (hListens : Listens sender c) (hUnfit : Unfit c sender packet) :
      Conversation link (t ++ [.refused link sender packet]) none
  | silent {t : History} {o : Option VerifierConversationState} {e : Happening}
      (hTalk : Conversation link t o) (hSilent : e.onLink link = false) :
      Conversation link (t ++ [e]) o

/-! ## One step of a party on a wire -/

section Steps

variable {p : Party} {J : View → Prop} {s : System} {v : View} {link : Link}
  {sender : VerifierMessageSender} {message : VerifierMessage} {c : VerifierConversationState}

theorem writes_sent (hp : link.source sender = p) (packet : Bytes) :
    Writes p s (s.log (.sent link sender packet)) :=
  writes_log (by rw [Happening.owner, hp]) nofun

/-- Whether the packet is accepted or not, it is the next one on its wire. -/
theorem writes_taken {e : Happening} {packet : Bytes} (hOwner : e.owner = some p)
    (he : e = .received link sender packet ∨ e = .refused link sender packet)
    (hNext : s.history.next link sender = some packet) : Writes p s (s.log e) := by
  refine writes_log hOwner fun l sd packet' h => ?_
  rcases he with rfl | rfl <;>
  · obtain ⟨⟨rfl, rfl⟩, hSame⟩ := Option.ite_none_right_eq_some.mp h
    exact hNext.trans hSame

/-- What a `send` comes to, as its party sees it. -/
theorem System.send_cases (hp : link.source sender = p) (message : VerifierMessage) (i : Input)
    (s : System) :
    (∃ e, System.send link sender message i s = (.error e, s)) ∨
    ∃ packet s', encodeVerifierMessage message = .ok packet ∧ Writes p s s' ∧
      s'.view p = ((s.view p).1 ++ [.sent link sender packet], (s.view p).2) ∧
      System.send link sender message i s = (.ok (), s') := by
  unfold System.send
  split
  · rename_i packet hPacket
    exact .inr ⟨packet, _, (sendVerifierMessage_eq_ok.mp hPacket).1, writes_sent hp packet,
      view_log (by rw [Happening.owner, hp]), rfl⟩
  · exact .inl ⟨_, rfl⟩

/-- What one look of `recvmsg` comes to, as the party that looks sees it. -/
inductive Looked (p : Party) (link : Link) (sender : VerifierMessageSender)
    (c : VerifierConversationState) (s : System) :
    Except Exn (Option (VerifierMessage × VerifierConversationState)) × System → Prop
  | failed {e : Exn} : Looked p link sender c s (.error e, s)
  | waiting : Looked p link sender c s (.ok none, s)
  | received {message : VerifierMessage} {packet : Bytes} {next : VerifierConversationState}
      {s' : System} (hPacket : encodeVerifierMessage message = .ok packet)
      (hNext : advanceVerifierConversation c sender message = .ok next) (hWrites : Writes p s s')
      (hView : s'.view p = ((s.view p).1 ++ [.received link sender packet], (s.view p).2)) :
      Looked p link sender c s (.ok (some (message, next)), s')
  | refused {e : Exn} {packet : Bytes} {s' : System} (hUnfit : Unfit c sender packet)
      (hWrites : Writes p s s')
      (hView : s'.view p = ((s.view p).1 ++ [.refused link sender packet], (s.view p).2)) :
      Looked p link sender c s (.error e, s')

theorem looked (hp : link.target sender = p) (c : VerifierConversationState) (i : Input)
    (s : System) : Looked p link sender c s (System.receive link sender c i s) := by
  unfold System.receive
  by_cases hFails : i.fails = true
  · rw [if_pos hFails]
    exact .failed
  rw [if_neg hFails]
  split
  · rename_i packet hPacket
    split
    · rename_i heard hHeard
      obtain ⟨hMessage, hNext⟩ := receiveAndAdvance_eq_ok.mp hHeard
      have hOwner : (Happening.received link sender packet).owner = some p := by
        rw [Happening.owner, hp]
      exact .received (encode_of_receive hMessage) hNext (writes_taken hOwner (.inl rfl) hPacket)
        (view_log hOwner)
    · rename_i e hError
      have hOwner : (Happening.refused link sender packet).owner = some p := by
        rw [Happening.owner, hp]
      refine .refused (fun heard hHeard => ?_) (writes_taken hOwner (.inr rfl) hPacket)
        (view_log hOwner)
      rw [hError] at hHeard
      cases hHeard
  · split
    · exact .failed
    · exact .waiting

theorem wp_send (hp : link.source sender = p) (hs : s.view p = v) (hJ : J v)
    (hSent : ∀ packet, encodeVerifierMessage message = .ok packet →
      J (v.1 ++ [.sent link sender packet], v.2)) :
    Proc.wp (partySetting p J) (fun _ s' => ∃ packet, encodeVerifierMessage message = .ok packet ∧
        s'.view p = (v.1 ++ [.sent link sender packet], v.2))
      (fun _ s' => s'.view p = v) (send link sender message) s := by
  refine wp_party hs fun s₁ i hs₁ => ?_
  subst hs₁
  rcases System.send_cases hp message i s₁ with ⟨e, hEq⟩ | ⟨packet, s₂, hPacket, hWrites, hView, hEq⟩
  · rw [hEq]
    exact ⟨.refl p s₁, hJ, nofun, fun _ _ => rfl⟩
  · rw [hEq]
    exact ⟨hWrites, hView ▸ hSent packet hPacket, fun _ _ => ⟨packet, hPacket, hView⟩, nofun⟩

theorem wp_poll {operation : String} (hs : s.view p = v) (hJ : J v) :
    Proc.wp (partySetting p J) (fun _ s' => s'.view p = v) (fun _ s' => s'.view p = v)
      (poll link sender operation) s :=
  wp_party_observe hs hJ fun _ _ hs' => ⟨fun _ _ => hs', fun _ _ => hs'⟩

theorem wp_receive (rounds : Nat) (hp : link.target sender = p) (hs : s.view p = v) (hJ : J v)
    (hReceived : ∀ message packet next, encodeVerifierMessage message = .ok packet →
      advanceVerifierConversation c sender message = .ok next →
      J (v.1 ++ [.received link sender packet], v.2))
    (hRefused : ∀ packet, Unfit c sender packet → J (v.1 ++ [.refused link sender packet], v.2)) :
    Proc.wp (partySetting p J)
      (fun heard s' => ∃ packet, encodeVerifierMessage heard.1 = .ok packet ∧
        advanceVerifierConversation c sender heard.1 = .ok heard.2 ∧
        s'.view p = (v.1 ++ [.received link sender packet], v.2))
      (fun _ s' => J (s'.view p)) (receive rounds link sender c) s := by
  refine Proc.wp_loop (fun _ s' => s'.view p = v) trivial (fun _ s₀ hs₀ => ?_) rounds hs
  refine wp_party hs₀ fun s₁ i hs₁ => ?_
  subst hs₁
  have hLooked := looked hp c i s₁
  generalize System.receive link sender c i s₁ = r at hLooked ⊢
  cases hLooked with
  | failed => exact ⟨.refl p s₁, hJ, nofun, fun _ _ => hJ⟩
  | waiting =>
    refine ⟨.refl p s₁, hJ, ?_, nofun⟩
    rintro _ ⟨⟩
    rfl
  | received hPacket hNext hWrites hView =>
    refine ⟨hWrites, hView ▸ hReceived _ _ _ hPacket hNext, ?_, nofun⟩
    rintro _ ⟨⟩
    exact ⟨_, hPacket, hNext, hView⟩
  | refused hUnfit hWrites hView =>
    have hEnds := hView ▸ hRefused _ hUnfit
    exact ⟨hWrites, hEnds, nofun, fun _ _ => hEnds⟩

theorem wp_sendAsVerifier (hp : link.target .daemon = p) (hs : s.view p = v) (hJ : J v)
    (hSent : ∀ packet next, encodeVerifierMessage message = .ok packet →
      advanceVerifierConversation v.2 .pamVerifier message = .ok next →
      J (v.1 ++ [.sent link .pamVerifier packet], next))
    (hLost : ∀ packet e, encodeVerifierMessage message = .ok packet →
      advanceVerifierConversation v.2 .pamVerifier message = .error e →
      J (v.1 ++ [.sent link .pamVerifier packet], v.2)) :
    Proc.wp (partySetting p J)
      (fun _ s' => ∃ packet next, encodeVerifierMessage message = .ok packet ∧
        advanceVerifierConversation v.2 .pamVerifier message = .ok next ∧
        s'.view p = (v.1 ++ [.sent link .pamVerifier packet], next))
      (fun _ s' => J (s'.view p)) (sendAsVerifier link message) s := by
  have hSource : link.source .pamVerifier = p := by
    rw [← hp]
    cases link <;> rfl
  refine wp_party hs fun s₁ i hs₁ => ?_
  simp only [verifierState_of_view link (hp ▸ hs₁ : s₁.view (link.target .daemon) = v)]
  subst hs₁
  rcases System.send_cases hSource message i s₁ with
    ⟨e, hEq⟩ | ⟨packet, s₂, hPacket, hWrites, hView, hEq⟩
  · rw [hEq]
    exact ⟨.refl p s₁, hJ, nofun, fun _ _ => hJ⟩
  · rw [hEq]
    simp only
    split
    · rename_i next hNext
      have hAfter := view_setVerifierState (s := s₂) hp next
      rw [hView] at hAfter
      exact ⟨hWrites.setVerifierState hp next, hAfter ▸ hSent packet next hPacket hNext,
        fun _ _ => ⟨packet, next, hPacket, hNext, hAfter⟩, nofun⟩
    · rename_i e hError
      have hEnds := hView ▸ hLost packet e hPacket hError
      exact ⟨hWrites, hEnds, nofun, fun _ _ => hEnds⟩

theorem wp_receiveAsVerifier (rounds : Nat) (hp : link.target .daemon = p) (hs : s.view p = v)
    (hJ : J v)
    (hReceived : ∀ message packet next, encodeVerifierMessage message = .ok packet →
      advanceVerifierConversation v.2 .daemon message = .ok next →
      J (v.1 ++ [.received link .daemon packet], next))
    (hRefused : ∀ packet, Unfit v.2 .daemon packet →
      J (v.1 ++ [.refused link .daemon packet], v.2)) :
    Proc.wp (partySetting p J)
      (fun message s' => ∃ packet next, encodeVerifierMessage message = .ok packet ∧
        advanceVerifierConversation v.2 .daemon message = .ok next ∧
        s'.view p = (v.1 ++ [.received link .daemon packet], next))
      (fun _ s' => J (s'.view p)) (receiveAsVerifier rounds link) s := by
  refine Proc.wp_loop (fun _ s' => s'.view p = v) trivial (fun _ s₀ hs₀ => ?_) rounds hs
  refine wp_party hs₀ fun s₁ i hs₁ => ?_
  simp only [verifierState_of_view link (hp ▸ hs₁ : s₁.view (link.target .daemon) = v)]
  subst hs₁
  have hLooked := looked hp (s₁.view p).2 i s₁
  generalize System.receive link .daemon (s₁.view p).2 i s₁ = r at hLooked ⊢
  cases hLooked with
  | failed => exact ⟨.refl p s₁, hJ, nofun, fun _ _ => hJ⟩
  | waiting =>
    refine ⟨.refl p s₁, hJ, ?_, nofun⟩
    rintro _ ⟨⟩
    rfl
  | @received message packet next s₂ hPacket hNext hWrites hView =>
    have hAfter := view_setVerifierState (s := s₂) hp next
    rw [hView] at hAfter
    refine ⟨hWrites.setVerifierState hp next, hAfter ▸ hReceived _ _ _ hPacket hNext, ?_, nofun⟩
    rintro _ ⟨⟩
    exact ⟨packet, next, hPacket, hNext, hAfter⟩
  | refused hUnfit hWrites hView =>
    have hEnds := hView ▸ hRefused _ hUnfit
    exact ⟨hWrites, hEnds, nofun, fun _ _ => hEnds⟩

end Steps

end VAuth.Verifier
