import VAuth.Verifier.Conduct

/-!
# A success of the verification is authentic

The daemon's client, the broker and a worker that may do anything: whenever
`run_verifier_service` returns a success, the broker has made every check that the success
stands for. A worker can send its completion before its prompt is answered; the broker takes
it only afterwards.
-/

namespace VAuth.Verifier

/-! ## Prompts and answers -/

/-- On the daemon's side of a link: messages were shown, and each prompt was answered before
anything else came. -/
inductive Answered (link : Link) : History → Prop
  | nil : Answered link []
  | status {t : History} {status : VerificationStatus} {packet : Bytes} (h : Answered link t)
      (hPacket : encodeVerifierMessage (.status status) = .ok packet) :
      Answered link (t ++ [.received link .pamVerifier packet])
  | secret {t : History} {required : SecretRequired} {secret prompt answer : Bytes}
      (h : Answered link t) (hPrompt : encodeVerifierMessage (.secretRequired required) = .ok prompt)
      (hAnswer : encodeVerifierMessage (.secretResponse secret) = .ok answer) :
      Answered link (t ++ [.received link .pamVerifier prompt, .sent link .daemon answer])

/-- The daemon's side of a link has sent its start packet, has answered every prompt, and then
the packets of `last` came. -/
def AnsweredThen (link : Link) (t : History) (last : List Bytes) : Prop :=
  ∃ start startPacket talk, encodeVerifierMessage (.start start) = .ok startPacket ∧
    Answered link talk ∧ t.filter (·.onLink link) =
      .sent link .daemon startPacket :: talk ++ last.map (.received link .pamVerifier)

/-- How far the daemon's side of a link has got in each state of its conversation. -/
def Exchanged (link : Link) (t : History) : VerifierConversationState → Prop
  | .awaitingStart => t.filter (·.onLink link) = []
  | .verifying => AnsweredThen link t []
  | .awaitingSecret => ∃ required prompt,
      encodeVerifierMessage (.secretRequired required) = .ok prompt ∧ AnsweredThen link t [prompt]
  | .completed result => result ≠ .error → ∃ packet,
      encodeVerifierMessage (.complete result) = .ok packet ∧ AnsweredThen link t [packet]
  | .cancelled => True

section Exchanged

variable {link : Link} {t : History} {e : Happening} {packet : Bytes}

theorem filter_onLink_snoc (h : e.onLink link = true) :
    (t ++ [e]).filter (·.onLink link) = t.filter (·.onLink link) ++ [e] := by
  rw [List.filter_append]
  simp [h]

theorem AnsweredThen.hears (h : AnsweredThen link t []) (packet : Bytes) :
    AnsweredThen link (t ++ [.received link .pamVerifier packet]) [packet] := by
  obtain ⟨start, startPacket, talk, hStart, hTalk, hFilter⟩ := h
  refine ⟨start, startPacket, talk, hStart, hTalk, ?_⟩
  rw [filter_onLink_snoc (by simp [Happening.onLink]), hFilter]
  simp

theorem AnsweredThen.status (h : AnsweredThen link t []) {status : VerificationStatus}
    (hPacket : encodeVerifierMessage (.status status) = .ok packet) :
    AnsweredThen link (t ++ [.received link .pamVerifier packet]) [] := by
  obtain ⟨start, startPacket, talk, hStart, hTalk, hFilter⟩ := h
  refine ⟨start, startPacket, _, hStart, hTalk.status hPacket, ?_⟩
  rw [filter_onLink_snoc (by simp [Happening.onLink]), hFilter]
  simp

theorem AnsweredThen.answers {required : SecretRequired} {prompt secret : Bytes}
    (h : AnsweredThen link t [prompt])
    (hPrompt : encodeVerifierMessage (.secretRequired required) = .ok prompt)
    (hPacket : encodeVerifierMessage (.secretResponse secret) = .ok packet) :
    AnsweredThen link (t ++ [.sent link .daemon packet]) [] := by
  obtain ⟨start, startPacket, talk, hStart, hTalk, hFilter⟩ := h
  refine ⟨start, startPacket, _, hStart, hTalk.secret hPrompt hPacket, ?_⟩
  rw [filter_onLink_snoc (by simp [Happening.onLink]), hFilter]
  simp

theorem exchanged_congr {t₁ t₂ : History}
    (h : t₁.filter (·.onLink link) = t₂.filter (·.onLink link)) (c : VerifierConversationState) :
    Exchanged link t₁ c ↔ Exchanged link t₂ c := by
  cases c <;> simp only [Exchanged, AnsweredThen, h]

variable {sender : VerifierMessageSender}

theorem sender_of_sent (link : Link) (h : link.source sender = link.source .daemon) :
    sender = .daemon := by
  cases link <;> cases sender <;> first | rfl | cases h

theorem sender_of_received (link : Link) (h : link.target sender = link.source .daemon) :
    sender = .pamVerifier := by
  cases link <;> cases sender <;> first | rfl | cases h

theorem Conversation.exchanged {o : Option VerifierConversationState} (h : Conversation link t o)
    (hOwner : ∀ e ∈ t, e.owner = some (link.source .daemon)) (c : VerifierConversationState)
    (hc : o = some c) : Exchanged link t c := by
  induction h generalizing c with
  | nil =>
    cases hc
    rfl
  | @sent t₁ c₁ next sender message packet hTalk hPacket hNext ih =>
    cases hc
    have hBefore := ih (fun e he => hOwner e (List.mem_append_left _ he)) _ rfl
    have hSender : sender = .daemon := by
      refine sender_of_sent link ?_
      have hLast := hOwner _ (List.mem_append_right _ (List.mem_singleton_self _))
      exact Option.some.inj hLast
    subst hSender
    cases advances_of_ok hNext with
    | start start =>
      have hNone : t₁.filter (·.onLink link) = [] := hBefore
      refine ⟨start, packet, [], hPacket, .nil, ?_⟩
      rw [filter_onLink_snoc (by simp [Happening.onLink]), hNone]
      simp
    | cancel => trivial
    | answer secret =>
      obtain ⟨required, prompt, hPrompt, hPrompted⟩ := hBefore
      exact hPrompted.answers hPrompt hPacket
    | cancelPrompt => trivial
  | @received t₁ c₁ next sender message packet hTalk hPacket hNext ih =>
    cases hc
    have hBefore := ih (fun e he => hOwner e (List.mem_append_left _ he)) _ rfl
    have hSender : sender = .pamVerifier := by
      refine sender_of_received link ?_
      have hLast := hOwner _ (List.mem_append_right _ (List.mem_singleton_self _))
      exact Option.some.inj hLast
    subst hSender
    cases advances_of_ok hNext with
    | status status => exact AnsweredThen.status hBefore hPacket
    | prompt required => exact ⟨required, packet, hPacket, AnsweredThen.hears hBefore packet⟩
    | complete result => exact fun _ => ⟨packet, hPacket, AnsweredThen.hears hBefore packet⟩
    | giveUp => exact fun hError => absurd rfl hError
  | refused => cases hc
  | @silent t₁ o₁ e hTalk hSilent ih =>
    have hBefore := ih (fun e he => hOwner e (List.mem_append_left _ he)) c hc
    have hSame : (t₁ ++ [e]).filter (·.onLink link) = t₁.filter (·.onLink link) := by
      rw [List.filter_append]
      simp [hSilent]
    exact (exchanged_congr hSame c).mpr hBefore

end Exchanged

/-! ## The daemon and the broker, with any worker -/

/-- What the processes of the parties return. -/
def Outcome : Party → Type
  | .daemon => VerificationResult
  | .broker => Unit
  | .worker => PamStatus

/-- The two processes; the worker is one of the others. -/
def daemonAndBroker (rounds : Nat) (start : StartVerification) (daemonUid : UInt32) :
    Proc.Team System Input Exn fun p : { p : Party // p ≠ .worker } => Outcome p
  | ⟨.daemon, _⟩ => runVerifierService rounds start
  | ⟨.broker, _⟩ => runPamVerifierConnection rounds daemonUid
  | ⟨.worker, h⟩ => absurd rfl h

/-- A worker that does anything it can do, and deaths at any time. -/
def AnyWorker (s s' : System) : Prop :=
  Writes .worker s s' ∨ ∃ e, e.owner = none ∧ s' = s.log e

variable {s s' : System}

theorem view_log_of_nobody {e : Happening} (hOwner : e.owner = none) (p : Party) :
    (s.log e).view p = s.view p := by
  refine Prod.ext ?_ ?_
  · change (s.history ++ [e]).transcript p = s.history.transcript p
    rw [History.transcript_append]
    simp [History.transcript, hOwner]
  · cases p <;> rfl

theorem AnyWorker.view (h : AnyWorker s s') {p : Party} (hp : p ≠ .worker) :
    s'.view p = s.view p := by
  rcases h with hWrites | ⟨e, hOwner, rfl⟩
  · exact hWrites.view hp
  · exact view_log_of_nobody hOwner p

theorem AnyWorker.fifo (h : AnyWorker s s') (hFifo : s.history.Fifo) : s'.history.Fifo := by
  rcases h with hWrites | ⟨e, hOwner, rfl⟩
  · exact hWrites.fifo hFifo
  · refine hFifo.snoc fun link sender packet hTaken => ?_
    cases e with
    | closed p => cases hTaken
    | exited status => cases hTaken
    | _ => cases hOwner

theorem AnyWorker.rejections (h : AnyWorker s s') : s'.rejections = s.rejections := by
  rcases h with hWrites | ⟨e, -, rfl⟩
  · exact hWrites.rejections
  · rfl

/-- What holds of the view of each party in every run. -/
def Conducts (start : StartVerification) (daemonUid : UInt32) : Party → View → Prop
  | .daemon => DaemonTalk start
  | .broker => BrokerTalk daemonUid
  | .worker => fun _ => True

section Run

variable {rounds : Nat} {start : StartVerification} {daemonUid : UInt32} {s : System}
  {ps : Proc.Team System Input Exn fun p : { p : Party // p ≠ .worker } => Outcome p}

/-- What a result says of the view of the party that returned it. -/
def Returned (start : StartVerification) : (p : { p : Party // p ≠ .worker }) → Outcome p → View → Prop
  | ⟨.daemon, _⟩, result => Talking start (.completed result)
  | ⟨.broker, _⟩, _ => fun _ => True
  | ⟨.worker, _⟩, _ => fun _ => True

theorem conduct_withAnyWorker (hRun : Proc.Team.Steps AnyWorker (fun _ _ _ => True)
      (daemonAndBroker rounds start daemonUid, {}) (ps, s)) :
    s.history.Fifo ∧ (∀ p : { p : Party // p ≠ .worker }, Conducts start daemonUid p (s.view p)) ∧
      ∀ p a, ps p = .done a → Returned start p a (s.view p) := by
  have hAll := conduct_of_steps (J := fun p => Conducts start daemonUid p) (R := Returned start)
    Subtype.val_injective ?_ ?_ ?_ hRun
  · exact ⟨hAll.1, hAll.2.2⟩
  · rintro ⟨p, hp⟩
    cases p with
    | daemon => exact wp_runVerifierService_talk rounds rfl
    | broker => exact wp_runPamVerifierConnection rounds rfl
    | worker => exact absurd rfl hp
  · intro s s' hStep
    exact ⟨fun p => hStep.view p.2, hStep.fifo, hStep.rejections⟩
  · refine ⟨fun _ _ => List.prefix_refl _, rfl, ?_⟩
    rintro ⟨p, hp⟩
    cases p with
    | daemon => exact .inl rfl
    | broker => exact ⟨⟨_, .nil⟩, ⟨_, .nil⟩, fun h => absurd h List.not_mem_nil⟩
    | worker => exact absurd rfl hp

/-- What the broker has seen when it reports a success: a peer with the daemon's uid, a request
whose session was authorized before the worker was started, a worker that completed the
verification with each prompt that the broker had taken answered, its exit with status 0, and
the same session, authorized once more. -/
def Authentic (daemonUid : UInt32) (start : StartVerification) (t : History) : Prop :=
  ∃ peer startPacket before username exchange after,
    t = [.peer peer, .received .outer .daemon startPacket,
        .queried start.sessionId (some before), .spawned username] ++ exchange ++
      [.received .inner .pamVerifier successPacket, .reaped (.exited 0),
        .queried start.sessionId (some after), .sent .outer .pamVerifier successPacket] ∧
    authorizeVerifierPeer peer daemonUid = .ok () ∧
    encodeVerifierMessage (.start start) = .ok startPacket ∧
    authorizeVerificationSession start before = .ok () ∧
    authorizeVerificationSession start after = .ok () ∧
    AnsweredThen .inner exchange []

theorem Checked.authentic {t : History} (h : Checked daemonUid start t)
    (hOwner : ∀ e ∈ t, e.owner = some .broker) : Authentic daemonUid start t := by
  obtain ⟨peer, startPacket, before, username, exchange, after, rfl, hPeer, hStart, hBefore, hAfter,
    hTalk⟩ := h
  refine ⟨peer, startPacket, before, username, exchange, after, rfl, hPeer, hStart, hBefore, hAfter,
    hTalk.exchanged (fun e he => hOwner e ?_) .verifying rfl⟩
  exact List.mem_append_left _ (List.mem_append_right _ he)

variable {h : History} {packet : Bytes} {link : Link} {sender : VerifierMessageSender}

theorem owner_of_mem_transcript {p : Party} {e : Happening} (he : e ∈ h.transcript p) :
    e.owner = some p := by
  have hOwner := (List.mem_filter.mp he).2
  exact of_decide_eq_true hOwner

theorem takenOn_of_received (hMem : .received link sender packet ∈ h) :
    packet ∈ h.takenOn link sender :=
  List.mem_filterMap.mpr ⟨_, hMem, by simp [Happening.takenOn?]⟩

theorem sent_of_sentOn (hSent : packet ∈ h.sentOn link sender) :
    .sent link sender packet ∈ h.transcript (link.source sender) := by
  obtain ⟨e, he, hPacket⟩ := List.mem_filterMap.mp hSent
  cases e with
  | sent l sd p =>
    simp only [Happening.sentOn?] at hPacket
    split at hPacket
    · rename_i hWire
      obtain ⟨rfl, rfl⟩ := hWire
      cases hPacket
      exact List.mem_filter.mpr ⟨he, by simp [Happening.owner]⟩
    · cases hPacket
  | _ => cases hPacket

theorem sent_of_taken (hFifo : h.Fifo) (hTaken : packet ∈ h.takenOn link sender) :
    .sent link sender packet ∈ h.transcript (link.source sender) :=
  sent_of_sentOn ((hFifo link sender).subset hTaken)

theorem start_of_checked (hFifo : h.Fifo) {start' : StartVerification}
    (hDaemon : Begun start (h.transcript .daemon))
    (hBroker : Checked daemonUid start' (h.transcript .broker)) : start' = start := by
  obtain ⟨packet, rest, hPacket, hDaemon⟩ := hDaemon
  obtain ⟨peer, startPacket, before, username, exchange, after, hEq, -, hStart, -⟩ := hBroker
  have hSent : ∃ more, h.sentOn .outer .daemon = packet :: more := by
    rw [← History.sentOn_transcript]
    change ∃ more, History.sentOn (h.transcript .daemon) .outer .daemon = _
    rw [hDaemon]
    exact ⟨_, rfl⟩
  have hTaken : ∃ more, h.takenOn .outer .daemon = startPacket :: more := by
    rw [← History.takenOn_transcript]
    change ∃ more, History.takenOn (h.transcript .broker) .outer .daemon = _
    rw [hEq]
    exact ⟨_, rfl⟩
  obtain ⟨more, hSent⟩ := hSent
  obtain ⟨more', hTaken⟩ := hTaken
  have hPrefix := hFifo .outer .daemon
  rw [hSent, hTaken] at hPrefix
  obtain ⟨rfl, -⟩ := List.cons_prefix_cons.mp hPrefix
  have hSame := (encode_iff_decode.mp hStart).symm.trans (encode_iff_decode.mp hPacket)
  cases hSame
  rfl

abbrev theDaemon : { p : Party // p ≠ .worker } := ⟨.daemon, by decide⟩

abbrev theBroker : { p : Party // p ≠ .worker } := ⟨.broker, by decide⟩

/-- The last thing that a client saw which returned a result. -/
theorem completed_mem {t : History} (h : AnsweredThen .outer t [packet]) :
    .received .outer .pamVerifier packet ∈ t := by
  obtain ⟨start, startPacket, talk, -, -, hFilter⟩ := h
  have hMem : Happening.received .outer .pamVerifier packet ∈ t.filter (·.onLink .outer) := by
    rw [hFilter]
    simp
  exact (List.mem_filter.mp hMem).1

/-- **A success is authentic end to end.** In every interleaving of the daemon's client and the
broker with a worker that does anything: a success of `run_verifier_service` was reported by the
broker after all of its checks, and the worker did send the completion; and a client that
returns a success or a denial has answered every prompt it received by one secret, in order. -/
theorem verification_success_authentic (hRun : Proc.Team.Steps AnyWorker (fun _ _ _ => True)
      (daemonAndBroker rounds start daemonUid, {}) (ps, s)) :
    (ps theDaemon = .done .success → Authentic daemonUid start (s.history.transcript .broker) ∧
      .sent .inner .pamVerifier successPacket ∈ s.history) ∧
    (∀ result, ps theDaemon = .done result → result ≠ .error →
      ∃ packet, encodeVerifierMessage (.complete result) = .ok packet ∧
        AnsweredThen .outer (s.history.transcript .daemon) [packet]) := by
  obtain ⟨hFifo, hTalks, hReturned⟩ := conduct_withAnyWorker hRun
  have hAnswered : ∀ result, ps theDaemon = .done result → result ≠ .error →
      ∃ packet, encodeVerifierMessage (.complete result) = .ok packet ∧
        AnsweredThen .outer (s.history.transcript .daemon) [packet] := by
    intro result hDone hResult
    have hTalking : Talking start (.completed result) (s.view .daemon) :=
      hReturned theDaemon result hDone
    exact hTalking.talk.exchanged (fun e he => owner_of_mem_transcript he) (.completed result) rfl
      hResult
  refine ⟨fun hDone => ?_, hAnswered⟩
  obtain ⟨packet, hPacket, hTalk⟩ := hAnswered .success hDone nofun
  cases hPacket
  have hHeard : Happening.received .outer .pamVerifier successPacket ∈ s.history :=
    (List.mem_filter.mp (completed_mem hTalk)).1
  have hBroker : BrokerTalk daemonUid (s.view .broker) := hTalks theBroker
  obtain ⟨start', hChecked⟩ := hBroker.checked (sent_of_taken hFifo (takenOn_of_received hHeard))
  have hTalking : Talking start (.completed .success) (s.view .daemon) :=
    hReturned theDaemon .success hDone
  obtain rfl := start_of_checked hFifo hTalking.begun hChecked
  refine ⟨hChecked.authentic fun e he => owner_of_mem_transcript he, ?_⟩
  obtain ⟨peer, startPacket, before, username, exchange, after, hEq, -⟩ := hChecked
  have hTold : Happening.received .inner .pamVerifier successPacket ∈ s.history := by
    have hMem : Happening.received .inner .pamVerifier successPacket ∈ (s.view .broker).1 := by
      rw [hEq]
      simp
    exact (List.mem_filter.mp hMem).1
  exact (List.mem_filter.mp (sent_of_taken hFifo (takenOn_of_received hTold))).1

end Run

/-! ## Two runs

The daemon asks for a session of user 1000, and each step of the two processes goes well. -/

def ready : Input where
  credentials := { pid := 7, uid := 990, gid := 990 }
  session := .ok { uid := 1000, active := true, remote := false }
  username := .ok [97]

def request : StartVerification := { targetUid := 1000, sessionId := [99, 50] }

def promptPacket : Bytes := setHeader .secretRequired [80]

/-- What the worker of a script does: it sends, and it exits. -/
def workerMove (_ : System) : Happening → Bool
  | .sent .inner .pamVerifier _ => true
  | .exited _ => true
  | _ => false

abbrev Script := List (({ p : Party // p ≠ .worker } × Input) ⊕ Happening)

def followWorker (script : Script) :=
  Proc.Team.follow (fun _ _ _ => true) System.log workerMove script
    (daemonAndBroker 6 request 990, {})

theorem steps_followWorker {script : Script} {c : Proc.Team System Input Exn
      fun p : { p : Party // p ≠ .worker } => Outcome p} (h : followWorker script = some (c, s)) :
    Proc.Team.Steps AnyWorker (fun _ _ _ => True) (daemonAndBroker 6 request 990, {}) (c, s) := by
  refine Proc.Team.steps_follow (fun _ _ _ _ => trivial) ?_ script h
  intro s e hMove
  cases e with
  | sent link sender packet =>
    cases link with
    | outer => cases hMove
    | inner =>
      cases sender with
      | daemon => cases hMove
      | pamVerifier => exact .inl (writes_sent (p := .worker) rfl packet)
  | exited status => exact .inr ⟨_, rfl, rfl⟩
  | _ => cases hMove

def daemonSteps (n : Nat) : Script := List.replicate n (.inl (theDaemon, ready))

def brokerSteps (n : Nat) : Script := List.replicate n (.inl (theBroker, ready))

/-- The worker prompts, and completes when the prompt was answered. -/
def politeScript : Script :=
  daemonSteps 4 ++ brokerSteps 9 ++ [.inr (.sent .inner .pamVerifier promptPacket)] ++
  brokerSteps 3 ++ daemonSteps 9 ++ brokerSteps 2 ++
  [.inr (.sent .inner .pamVerifier successPacket)] ++ brokerSteps 4 ++
  [.inr (.exited (.exited 0))] ++ brokerSteps 3 ++ daemonSteps 5

/-- The worker sends its prompt and its completion in one go. -/
def hastyScript : Script :=
  daemonSteps 4 ++ brokerSteps 9 ++ [.inr (.sent .inner .pamVerifier promptPacket),
    .inr (.sent .inner .pamVerifier successPacket)] ++
  brokerSteps 3 ++ daemonSteps 9 ++ brokerSteps 6 ++ [.inr (.exited (.exited 0))] ++
  brokerSteps 3 ++ daemonSteps 5

def succeeded : Proc System Input Exn VerificationResult → Bool
  | .done .success => true
  | _ => false

theorem eq_done_of_succeeded {p : Proc System Input Exn VerificationResult}
    (h : succeeded p = true) : p = .done .success := by
  cases p with
  | done result =>
    cases result with
    | success => rfl
    | denied => cases h
    | error => cases h
  | _ => cases h

/-- The run with the polite worker ends in a success, which is authentic. -/
theorem verification_success_authentic_polite : ∃ ps s,
    followWorker politeScript = some (ps, s) ∧ ps theDaemon = .done .success ∧
      Authentic 990 request (s.history.transcript .broker) := by
  have hEnds : (followWorker politeScript).any (fun c => succeeded (c.1 theDaemon)) = true := by
    decide +kernel
  obtain ⟨⟨ps, s⟩, hFollow, hSuccess⟩ := (Option.any_eq_true _ _).mp hEnds
  have hDone := eq_done_of_succeeded hSuccess
  exact ⟨ps, s, hFollow, hDone,
    ((verification_success_authentic (steps_followWorker hFollow)).1 hDone).1⟩

def isPrompt (packet : Bytes) : Bool :=
  match decodeVerifierMessage packet with
  | .ok (.secretRequired _) => true
  | _ => false

def isAnswer (packet : Bytes) : Bool :=
  match decodeVerifierMessage packet with
  | .ok (.secretResponse _) => true
  | _ => false

/-- The worker has sent a prompt that the broker has not answered. -/
def promptOutstanding (h : History) : Bool :=
  (h.sentOn .inner .daemon).countP isAnswer < (h.sentOn .inner .pamVerifier).countP isPrompt

/-- Wherever the worker sends a success, a prompt is outstanding. -/
def onlyHasty (h : History) : Bool :=
  (List.range h.length).all fun n =>
    h[n]? != some (.sent .inner .pamVerifier successPacket) || promptOutstanding (h.take n)

theorem onlyHasty_spec {h h₁ h₂ : History} (hHasty : onlyHasty h = true)
    (hEq : h = h₁ ++ .sent .inner .pamVerifier successPacket :: h₂) : promptOutstanding h₁ = true := by
  have hAt := List.all_eq_true.mp hHasty h₁.length (List.mem_range.mpr (by rw [hEq]; simp))
  rw [hEq, List.getElem?_append_right (Nat.le_refl _), Nat.sub_self, List.take_left' rfl] at hAt
  simpa using hAt

/-- A success whose completion was sent while the prompt was still outstanding. -/
theorem verification_success_hasty : ∃ ps s,
    Proc.Team.Steps AnyWorker (fun _ _ _ => True) (daemonAndBroker 6 request 990, {}) (ps, s) ∧
      ps theDaemon = .done .success ∧
      ∀ h₁ h₂, s.history = h₁ ++ .sent .inner .pamVerifier successPacket :: h₂ →
        promptOutstanding h₁ = true := by
  have hEnds : (followWorker hastyScript).any
      (fun c => succeeded (c.1 theDaemon) && onlyHasty c.2.history) = true := by
    decide +kernel
  obtain ⟨⟨ps, s⟩, hFollow, hBoth⟩ := (Option.any_eq_true _ _).mp hEnds
  obtain ⟨hSuccess, hHasty⟩ := (Bool.and_eq_true _ _).mp hBoth
  exact ⟨ps, s, steps_followWorker hFollow, eq_done_of_succeeded hSuccess,
    fun _ _ hEq => onlyHasty_spec hHasty hEq⟩

end VAuth.Verifier
