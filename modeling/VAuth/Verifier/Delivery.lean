import Mathlib.Data.List.Induction
import VAuth.Process.Clock
import VAuth.Verifier.Agreement

/-!
# The result of the worker is delivered

`run_cancellable_verifier_program` with a worker that follows the protocol, completes it with
`result` and exits with the status that goes with it. The broker looks at the socket and then
at the worker's exit, in two steps, so a worker that completes and exits between the two is
taken for one that never completed. In a run without such a hurry, with callbacks that return
and without failures, the broker returns `result`, once the worker has exited.
-/

namespace VAuth.Verifier

open Proc

/-! ## The worker and the callbacks -/

/-- What goes on around the broker. The worker follows the protocol and exits after it has
completed it with `result`, when its prompts are answered; the daemon's end does anything. -/
inductive Surroundings (result : VerificationResult) : System → System → Prop
  | talks {s s' : System} {c : VerifierConversationState} (hAlive : s.history.gone .worker = false)
      (hWrites : Writes .worker s s')
      (hTalk : Conversation .inner (s'.history.transcript .worker) (some c)) :
      Surroundings result s s'
  | exits {s : System} {code : UInt8} (hAlive : s.history.gone .worker = false)
      (hTalk : Conversation .inner (s.history.transcript .worker) (some (.completed result)))
      (hCode : code = 0 ↔ result = .success) (hAnswered : promptOutstanding s.history = false) :
      Surroundings result s (s.log (.exited (.exited code)))
  | elsewhere {s s' : System} (hWrites : Writes .daemon s s') : Surroundings result s s'

/-- No system call fails or is interrupted, the deadline does not pass, and the worker sends
fewer packets than the loops have rounds. -/
def Smooth (rounds : Nat) (s : System) (i : Input) : Prop :=
  i.fails = false ∧ i.interrupted = false ∧ i.expired = false ∧
    (s.history.sentOn .inner .pamVerifier).length < rounds

/-- A step of the broker that has nothing to do with the worker. -/
structure Aside (s s' : System) : Prop where
  writes : Writes .broker s s'
  silent : ∀ es, s'.history = s.history ++ es → ∀ e ∈ es, e.onLink .inner = false
  unreaped : ∀ status, .reaped status ∈ s'.history → .reaped status ∈ s.history

/-- Callbacks that return and do not touch the worker. There is no stop and no cancellation, and
the secrets can be sent. -/
structure Cooperative (C : ProgramCallbacks) (S : Setting System Input) : Prop where
  stop : ∀ s, wp S (fun b _ => b = false) (fun _ _ => False) C.stopRequested s
  cancel : ∀ s, wp S (fun b _ => b = false) (fun _ _ => False) C.cancellationRequested s
  status : ∀ status s, wp S (fun _ _ => True) (fun _ _ => False) (C.status status) s
  secret : ∀ required s, wp S
    (fun secret _ => ∃ packet, encodeVerifierMessage (.secretResponse secret) = .ok packet)
    (fun _ _ => False) (C.secret required) s

def callbackSetting (result : VerificationResult) (rounds : Nat) : Setting System Input where
  rely := Relation.ReflTransGen (Surroundings result)
  admits := Smooth rounds
  guar := Aside
  mayCut := False

/-- The worker's exit was seen only when nothing it had sent was left in the socket. -/
def DrainedAtReap (h : History) : Prop :=
  ∀ (h₁ : History) status h₂, h = h₁ ++ .reaped status :: h₂ → h₁.next .inner .pamVerifier = none

/-! ## What a conversation says of the completion -/

section Completion

variable {link : Link} {t : History} {o : Option VerifierConversationState}
  {c next : VerifierConversationState} {result : VerificationResult} {packet : Bytes}
  {sender : VerifierMessageSender} {message : VerifierMessage}

theorem Advances.live (h : Advances c sender message next) :
    verifierConversationIsTerminal c = false := by
  cases h <;> rfl

/-- One more packet that the automaton follows: it is a completion exactly if the automaton is
completed now. -/
theorem completed_iff_of_advances (h : Advances c sender message next) :
    next = .completed result ↔ sender = .pamVerifier ∧ message = .complete result := by
  cases h <;> simp

theorem Conversation.completed_iff (h : Conversation link t o) (hSome : o = some c)
    (hPacket : encodeVerifierMessage (.complete result) = .ok packet) :
    c = .completed result ↔ packet ∈ t.saidOn link .pamVerifier := by
  have hStep : ∀ {t' : History} {c₁ next₁ : VerifierConversationState}
      {sender₁ : VerifierMessageSender} {message₁ : VerifierMessage} {packet₁ : Bytes},
      (c₁ = .completed result ↔ packet ∈ t'.saidOn link .pamVerifier) →
      encodeVerifierMessage message₁ = .ok packet₁ → Advances c₁ sender₁ message₁ next₁ →
      (next₁ = .completed result ↔ packet ∈ t'.saidOn link .pamVerifier ++
        if sender₁ = .pamVerifier then [packet₁] else []) := by
    intro t' c₁ next₁ sender₁ message₁ packet₁ ih hEncodes hNext
    have hBefore : packet ∉ t'.saidOn link .pamVerifier := by
      intro hMem
      have hLive := hNext.live
      rw [ih.mpr hMem] at hLive
      cases hLive
    have hSame : packet₁ = packet ↔ message₁ = .complete result := by
      constructor
      · rintro rfl
        exact Except.ok.inj ((encode_iff_decode.mp hEncodes).symm.trans (encode_iff_decode.mp hPacket))
      · rintro rfl
        exact Except.ok.inj (hEncodes.symm.trans hPacket)
    rw [completed_iff_of_advances hNext, List.mem_append]
    by_cases hSender : sender₁ = .pamVerifier
    · simp [hSender, hBefore, ← hSame, eq_comm]
    · simp [hSender, hBefore]
  induction h generalizing c with
  | nil =>
    cases hSome
    simp [History.saidOn]
  | sent hTalk hEncodes hNext ih =>
    cases hSome
    rw [saidOn_snoc_sent]
    exact hStep (ih rfl) hEncodes (advances_of_ok hNext)
  | received hTalk hEncodes hNext ih =>
    cases hSome
    rw [saidOn_snoc_received]
    exact hStep (ih rfl) hEncodes (advances_of_ok hNext)
  | refused => cases hSome
  | silent hTalk hSilent ih =>
    rw [saidOn_snoc_of_silent hSilent]
    exact ih hSome

end Completion

/-! ## What one party leaves alone -/

section Owned

variable {h es : History} {p q : Party} {s s' : System} {link : Link}
  {sender : VerifierMessageSender} {result : VerificationResult}

theorem gone_of_owned (hOwned : ∀ e ∈ es, e.owner = some p) (q : Party) :
    History.gone (h ++ es) q = h.gone q := by
  have hNone : es.any (Happening.closes q) = false := by
    refine List.any_eq_false.mpr fun e he => ?_
    have hOwner := hOwned e he
    cases e with
    | closed party => cases hOwner
    | exited status => cases hOwner
    | _ => exact Bool.false_ne_true
  unfold History.gone
  rw [List.any_append, hNone, Bool.or_false]

theorem exitStatus_of_owned (hOwned : ∀ e ∈ es, e.owner = some p) :
    History.exitStatus (h ++ es) = h.exitStatus := by
  have hNone : es.findSome? Happening.exit? = none := by
    refine List.findSome?_eq_none_iff.mpr fun e he => ?_
    have hOwner := hOwned e he
    cases e with
    | exited status => cases hOwner
    | _ => rfl
  unfold History.exitStatus
  rw [List.findSome?_append, hNone, Option.or_none]

theorem sentOn_of_others (hOthers : ∀ e ∈ es, e.owner ≠ some (link.source sender)) :
    es.sentOn link sender = [] := by
  refine List.filterMap_eq_nil_iff.mpr fun e he => ?_
  have hOwner := hOthers e he
  cases e with
  | sent l sd packet =>
    refine if_neg ?_
    rintro ⟨rfl, rfl⟩
    exact hOwner rfl
  | _ => rfl

theorem takenOn_of_others (hOthers : ∀ e ∈ es, e.owner ≠ some (link.target sender)) :
    es.takenOn link sender = [] := by
  refine List.filterMap_eq_nil_iff.mpr fun e he => ?_
  have hOwner := hOthers e he
  cases e with
  | received l sd packet =>
    refine if_neg ?_
    rintro ⟨rfl, rfl⟩
    exact hOwner rfl
  | refused l sd packet =>
    refine if_neg ?_
    rintro ⟨rfl, rfl⟩
    exact hOwner rfl
  | _ => rfl

theorem takenOn_of_silent {t : History} (sender : VerifierMessageSender)
    (hSilent : ∀ e ∈ t, e.onLink link = false) : t.takenOn link sender = [] := by
  refine List.filterMap_eq_nil_iff.mpr fun e he => ?_
  have hOff := hSilent e he
  cases e with
  | received l sd p => exact if_neg fun hWire => by simp [Happening.onLink, hWire.1] at hOff
  | refused l sd p => exact if_neg fun hWire => by simp [Happening.onLink, hWire.1] at hOff
  | _ => rfl

theorem Surroundings.adds (hStep : Surroundings result s s') :
    ∃ es : History, s'.history = s.history ++ es ∧ ∀ e ∈ es, e.owner ≠ some .broker := by
  have hWritten : ∀ {p}, Writes p s s' → p ≠ .broker →
      ∃ es : History, s'.history = s.history ++ es ∧ ∀ e ∈ es, e.owner ≠ some .broker := by
    intro p hWrites hp
    obtain ⟨es, hEq, hOwned⟩ := hWrites.history
    refine ⟨es, hEq, fun e he hOwner => hp ?_⟩
    rw [hOwned e he] at hOwner
    exact Option.some.inj hOwner
  cases hStep with
  | talks hAlive hWrites hTalk => exact hWritten hWrites nofun
  | exits => exact ⟨_, rfl, fun e he => by rw [List.mem_singleton.mp he]; nofun⟩
  | elsewhere hWrites => exact hWritten hWrites nofun

theorem gone_of_exitStatus (hExit : h.exitStatus ≠ none) : h.gone .worker = true := by
  obtain ⟨status, hStatus⟩ := Option.ne_none_iff_exists'.mp hExit
  obtain ⟨e, he, hFound⟩ := List.exists_of_findSome?_eq_some hStatus
  refine List.any_eq_true.mpr ⟨e, he, ?_⟩
  cases e with
  | exited status' => rfl
  | _ => cases hFound

theorem exitStatus_exited {status : ExitStatus} (hNone : h.exitStatus = none) :
    History.exitStatus (h ++ [.exited status]) = some status := by
  unfold History.exitStatus at hNone ⊢
  rw [List.findSome?_append, hNone]
  rfl

theorem promptOutstanding_exited (h : History) (status : ExitStatus) :
    promptOutstanding (h ++ [.exited status]) = promptOutstanding h := by
  unfold promptOutstanding
  rw [History.sentOn_append, History.sentOn_append, show History.sentOn [.exited status] .inner
    .daemon = [] from rfl, show History.sentOn [.exited status] .inner .pamVerifier = [] from rfl,
    List.append_nil, List.append_nil]

theorem transcript_of_writes (hWrites : Writes p s s') (hq : q ≠ p) :
    s'.history.transcript q = s.history.transcript q :=
  congrArg Prod.fst (hWrites.view hq)

end Owned

/-! ## The invariant -/

/-- The worker has exited, as it should. -/
def Exited (result : VerificationResult) (s : System) : Prop :=
  ∃ code, s.history.exitStatus = some (.exited code) ∧ (code = 0 ↔ result = .success) ∧
    Conversation .inner (s.history.transcript .worker) (some (.completed result)) ∧
    promptOutstanding s.history = false

def Alive (s : System) : Prop := s.history.gone .worker = false ∧ s.history.exitStatus = none

/-- The broker's conversation with the worker is in state `c` after `taken` packets of the worker,
and the worker was not reaped. -/
structure Delivering (result : VerificationResult) (c : VerifierConversationState) (taken : Nat)
    (s : System) : Prop where
  fifo : s.history.Fifo
  talk : Conversation .inner (s.history.transcript .broker) (some c)
  worker : ∃ w, Conversation .inner (s.history.transcript .worker) (some w)
  unreaped : ∀ status, .reaped status ∉ s.history
  life : Alive s ∨ Exited result s
  count : (s.history.takenOn .inner .pamVerifier).length = taken

section Invariant

variable {result : VerificationResult} {c c' : VerifierConversationState} {p : Party}
  {s s' : System} {packet : Bytes} {taken taken' : Nat}

theorem Alive.of_writes (h : Alive s) (hWrites : Writes p s s') : Alive s' := by
  obtain ⟨es, hEq, hOwned⟩ := hWrites.history
  unfold Alive
  rw [hEq, gone_of_owned hOwned, exitStatus_of_owned hOwned]
  exact h

theorem Exited.of_writes (h : Exited result s) (hWrites : Writes p s s') (hp : p ≠ .worker) :
    Exited result s' := by
  obtain ⟨code, hStatus, hCode, hTalk, hAnswered⟩ := h
  have hSame := transcript_of_writes hWrites hp.symm
  obtain ⟨es, hEq, hOwned⟩ := hWrites.history
  refine ⟨code, ?_, hCode, hSame.symm ▸ hTalk, ?_⟩
  · rw [hEq, exitStatus_of_owned hOwned]
    exact hStatus
  · have hPrompts : es.sentOn .inner .pamVerifier = [] := by
      refine sentOn_of_others fun e he hOwner => hp ?_
      rw [hOwned e he] at hOwner
      exact Option.some.inj hOwner
    unfold promptOutstanding at hAnswered ⊢
    rw [hEq, History.sentOn_append, History.sentOn_append, hPrompts, List.append_nil,
      List.countP_append]
    simp only [decide_eq_false_iff_not] at hAnswered ⊢
    omega

/-- A step of another party than the worker. -/
theorem Delivering.of_writes (h : Delivering result c taken s) (hWrites : Writes p s s')
    (hp : p ≠ .worker) (hTalk : Conversation .inner (s'.history.transcript .broker) (some c'))
    (hUnreaped : ∀ status, .reaped status ∉ s'.history)
    (hCount : (s'.history.takenOn .inner .pamVerifier).length = taken') :
    Delivering result c' taken' s' where
  fifo := hWrites.fifo h.fifo
  talk := hTalk
  worker := by
    rw [transcript_of_writes hWrites hp.symm]
    exact h.worker
  unreaped := hUnreaped
  life := by
    rcases h.life with hAlive | hExited
    · exact .inl (hAlive.of_writes hWrites)
    · exact .inr (hExited.of_writes hWrites hp)
  count := hCount

theorem unreaped_of_writes (h : ∀ status, .reaped status ∉ s.history) (hWrites : Writes p s s')
    (hp : p ≠ .broker) (status : ExitStatus) : .reaped status ∉ s'.history := by
  obtain ⟨es, hEq, hOwned⟩ := hWrites.history
  rw [hEq]
  intro hMem
  rcases List.mem_append.mp hMem with hMem | hMem
  · exact h status hMem
  · exact hp (Option.some.inj (hOwned _ hMem)).symm

/-- Those around the broker keep the invariant. -/
theorem Delivering.surroundings (hStep : Surroundings result s s') (h : Delivering result c taken s) :
    Delivering result c taken s' := by
  have hCount : (s'.history.takenOn .inner .pamVerifier).length = taken := by
    obtain ⟨es, hEq, hOthers⟩ := hStep.adds
    have hNone : es.takenOn .inner .pamVerifier = [] := takenOn_of_others hOthers
    rw [hEq, History.takenOn_append, hNone, List.append_nil]
    exact h.count
  cases hStep with
  | @talks _ w hAlive hWrites hTalk =>
    have hLife : Alive s := by
      rcases h.life with hLife | ⟨code, hStatus, -⟩
      · exact hLife
      · rw [gone_of_exitStatus (by rw [hStatus]; nofun)] at hAlive
        cases hAlive
    exact {
      fifo := hWrites.fifo h.fifo
      talk := by
        rw [transcript_of_writes hWrites (by nofun)]
        exact h.talk
      worker := ⟨w, hTalk⟩
      unreaped := unreaped_of_writes h.unreaped hWrites (by nofun)
      life := .inl (hLife.of_writes hWrites)
      count := hCount }
  | @exits code hAlive hTalk hCode hAnswered =>
    have hStatus : s.history.exitStatus = none := by
      by_contra hExit
      rw [gone_of_exitStatus hExit] at hAlive
      cases hAlive
    have hView : ∀ q, (s.log (.exited (.exited code))).history.transcript q =
        s.history.transcript q :=
      fun q => congrArg Prod.fst (view_log_of_nobody rfl q)
    exact {
      fifo := h.fifo.snoc nofun
      talk := by
        rw [hView]
        exact h.talk
      worker := by
        rw [hView]
        exact h.worker
      unreaped := by
        intro status hMem
        rcases List.mem_append.mp hMem with hMem | hMem
        · exact h.unreaped status hMem
        · cases List.mem_singleton.mp hMem
      life := by
        refine .inr ⟨code, ?_, hCode, (hView .worker).symm ▸ hTalk, ?_⟩
        · exact exitStatus_exited hStatus
        · exact (promptOutstanding_exited s.history _).trans hAnswered
      count := hCount }
  | elsewhere hWrites =>
    refine h.of_writes hWrites (by nofun) ?_ (unreaped_of_writes h.unreaped hWrites (by nofun))
      hCount
    rw [transcript_of_writes hWrites (by nofun)]
    exact h.talk

theorem Conversation.append_silent {link : Link} {t es : History}
    {o : Option VerifierConversationState} (h : Conversation link t o)
    (hSilent : ∀ e ∈ es, e.onLink link = false) : Conversation link (t ++ es) o := by
  induction es generalizing t with
  | nil =>
    rw [List.append_nil]
    exact h
  | cons e es ih =>
    rw [List.append_cons]
    exact ih (h.silent (hSilent e List.mem_cons_self))
      fun e' he' => hSilent e' (List.mem_cons_of_mem _ he')

theorem Delivering.aside (h : Delivering result c taken s) (hStep : Aside s s') :
    Delivering result c taken s' := by
  obtain ⟨es, hEq, -⟩ := hStep.writes.history
  refine h.of_writes hStep.writes (by nofun) ?_ ?_ ?_
  · have hTranscript : s'.history.transcript .broker =
        s.history.transcript .broker ++ History.transcript es .broker := by
      rw [hEq, History.transcript_append]
    rw [hTranscript]
    exact h.talk.append_silent fun e he => hStep.silent es hEq e (List.mem_filter.mp he).1
  · intro status hMem
    exact h.unreaped status (hStep.unreaped status hMem)
  · rw [hEq, History.takenOn_append, takenOn_of_silent .pamVerifier (hStep.silent es hEq),
      List.append_nil]
    exact h.count

/-! What the two ends know of each other. -/

theorem Delivering.heard (h : Delivering result c taken s) :
    (s.history.transcript .broker).saidOn .inner .pamVerifier =
      s.history.takenOn .inner .pamVerifier := by
  rw [← History.takenOn_transcript]
  exact saidOn_eq_takenOn (fun e he => owner_of_mem_transcript he)
    fun packet => h.talk.unrefused .pamVerifier packet

theorem Delivering.told (_ : Delivering result c taken s) :
    (s.history.transcript .broker).saidOn .inner .daemon = s.history.sentOn .inner .daemon := by
  rw [← History.sentOn_transcript]
  exact saidOn_eq_sentOn fun e he => owner_of_mem_transcript he

theorem said_by_worker (h : History) : (h.transcript .worker).saidOn .inner .pamVerifier =
    h.sentOn .inner .pamVerifier := by
  rw [← History.sentOn_transcript]
  exact saidOn_eq_sentOn fun e he => owner_of_mem_transcript he

theorem completion_encodes (result : VerificationResult) :
    ∃ packet, encodeVerifierMessage (.complete result) = .ok packet := by
  cases result <;> exact ⟨_, rfl⟩

/-- The completion of a worker that has exited is still in the socket while the broker has none. -/
theorem Delivering.unread (h : Delivering result .verifying taken s) (hExited : Exited result s) :
    ∃ packet, s.history.next .inner .pamVerifier = some packet := by
  obtain ⟨code, -, -, hTalk, -⟩ := hExited
  obtain ⟨packet, hPacket⟩ := completion_encodes result
  have hSent := (hTalk.completed_iff rfl hPacket).mp rfl
  rw [said_by_worker] at hSent
  have hTaken : packet ∉ s.history.takenOn .inner .pamVerifier := by
    intro hMem
    rw [← h.heard] at hMem
    cases (h.talk.completed_iff rfl hPacket).mpr hMem
  have hPrefix := h.fifo .inner .pamVerifier
  have hLess : (s.history.takenOn .inner .pamVerifier).length <
      (s.history.sentOn .inner .pamVerifier).length := by
    refine Nat.lt_of_le_of_ne hPrefix.length_le fun hLength => hTaken ?_
    rw [hPrefix.eq_of_length hLength]
    exact hSent
  exact ⟨_, List.getElem?_eq_getElem hLess⟩

/-- What the broker takes next is something that a verifier may say. -/
theorem Delivering.fits (h : Delivering result .verifying taken s)
    (hNext : s.history.next .inner .pamVerifier = some packet) :
    ¬ Unfit .verifying .pamVerifier packet := by
  obtain ⟨w, hTalk⟩ := h.worker
  have hSent : packet ∈ s.history.sentOn .inner .pamVerifier := List.mem_of_getElem? hNext
  obtain ⟨message, hPacket, hSender⟩ := hTalk.of_sent (sent_of_sentOn hSent)
  exact fit_of_verifier hPacket hSender

theorem Delivering.alive_of_prompt (h : Delivering result .awaitingSecret taken s) : Alive s := by
  rcases h.life with hAlive | ⟨code, -, -, -, hAnswered⟩
  · exact hAlive
  · exfalso
    have hOpen : ((s.history.transcript .broker).saidOn .inner .pamVerifier).countP isPrompt =
        ((s.history.transcript .broker).saidOn .inner .daemon).countP isAnswer + 1 := h.talk.balanced
    rw [h.heard, h.told] at hOpen
    have hTaken := (h.fifo .inner .pamVerifier).sublist.countP_le (p := isPrompt)
    simp only [promptOutstanding, decide_eq_false_iff_not] at hAnswered
    omega

/-- A worker that was told nothing has not exited. -/
theorem Delivering.alive_of_start (h : Delivering result .awaitingStart taken s) : Alive s := by
  rcases h.life with hAlive | ⟨code, -, -, hTalk, -⟩
  · exact hAlive
  · exfalso
    have hNone : s.history.sentOn .inner .daemon = [] := by
      rw [← h.told]
      exact (h.talk.started.2 _ rfl).mp rfl
    have hHeard : (s.history.transcript .worker).saidOn .inner .daemon = [] := by
      have hPrefix := prefix_of_fifo h.fifo .inner .daemon
      rw [History.sentOn_transcript, hNone] at hPrefix
      have hTaken : (s.history.transcript .worker).saidOn .inner .daemon =
          (s.history.transcript .worker).takenOn .inner .daemon :=
        saidOn_eq_takenOn (fun e he => owner_of_mem_transcript he)
          fun packet => hTalk.unrefused .daemon packet
      rw [hTaken]
      exact List.prefix_nil.mp hPrefix
    cases (hTalk.started.2 _ rfl).mpr hHeard

/-- The completion that the broker has taken is the one of the worker. -/
theorem Delivering.eq_result {r : VerificationResult} (h : Delivering result (.completed r) taken s)
    (hExited : Exited result s) : r = result := by
  obtain ⟨code, -, -, hTalk, -⟩ := hExited
  obtain ⟨packet, hPacket⟩ := completion_encodes r
  have hMem := (h.talk.completed_iff rfl hPacket).mp rfl
  rw [h.heard] at hMem
  have hSent := (h.fifo .inner .pamVerifier).subset hMem
  rw [← said_by_worker] at hSent
  cases (hTalk.completed_iff rfl hPacket).mpr hSent
  rfl

end Invariant

/-! ## The broker's steps -/

/-- The broker's steps are counted; the worker's exit is due after `bound` of them. -/
abbrev deliverySetting (result : VerificationResult) (rounds bound : Nat) :
    Setting (System × Nat) Input :=
  .timed (Surroundings result) (Smooth rounds) (fun s s' => s.history <+: s'.history) bound
    fun s => s.history.exitStatus ≠ none

section Steps

variable {result : VerificationResult} {rounds bound n taken : Nat} {s : System}
  {c : VerifierConversationState} {C : ProgramCallbacks}

theorem prefix_log (s : System) (e : Happening) : s.history <+: (s.log e).history :=
  ⟨[e], rfl⟩

variable {E : Exn → System × Nat → Prop} {packet : Bytes}

theorem wp_callback {α : Type} {p : PartyProc α} {Q : α → Prop}
    (hp : ∀ s, wp (callbackSetting result rounds) (fun a _ => Q a) (fun _ _ => False) p s)
    (h : Delivering result c taken s) :
    wp (deliverySetting result rounds bound)
      (fun a t => Q a ∧ Delivering result c taken t.1 ∧ n ≤ t.2) E p.clocked (s, n) := by
  refine wp_mono (wp_clocked_of_wp (J := Delivering result c taken) (fun _ _ h => h)
    (fun _ _ h => h) ?_ id (fun _ _ => Delivering.surroundings) (fun _ _ hStep h => h.aside hStep) h
    (hp s)) (fun _ _ h => h) (fun _ _ h => h.elim)
  intro s s' hStep
  obtain ⟨es, hEq, -⟩ := hStep.writes.history
  exact ⟨es, hEq.symm⟩

theorem Delivering.logs {c' : VerifierConversationState} {e : Happening}
    (h : Delivering result c taken s) (hOwner : e.owner = some .broker)
    (hNext : ∀ link sender packet, e.takenOn? link sender = some packet →
      s.history.next link sender = some packet)
    (hTalk : Conversation .inner (s.history.transcript .broker ++ [e]) (some c'))
    (hReaped : ∀ status, e ≠ .reaped status) :
    Delivering result c' (taken + (History.takenOn [e] .inner .pamVerifier).length) (s.log e) := by
  have hView : (s.log e).history.transcript .broker = s.history.transcript .broker ++ [e] :=
    congrArg Prod.fst (view_log hOwner)
  refine h.of_writes (writes_log hOwner hNext) nofun (hView ▸ hTalk) ?_ ?_
  · intro status hMem
    rcases List.mem_append.mp hMem with hMem | hMem
    · exact h.unreaped status hMem
    · exact hReaped status (List.mem_singleton.mp hMem).symm
  · change (History.takenOn (s.history ++ [e]) .inner .pamVerifier).length = _
    rw [History.takenOn_append, List.length_append, h.count]

theorem wp_pollWorker (h : Delivering result .verifying taken s) :
    wp (deliverySetting result rounds bound)
      (fun ready t => Delivering result .verifying taken t.1 ∧ n ≤ t.2 ∧
        (ready = .readable → ∃ packet, t.1.history.next .inner .pamVerifier = some packet))
      E (poll .inner .pamVerifier "poll verifier socket").clocked (s, n) := by
  refine wp_clocked_atomically (fun _ _ => Delivering.surroundings) h fun s' i h' hi _ => ?_
  refine ⟨List.prefix_refl _, ?_, ?_⟩
  · intro ready hReady
    refine ⟨h', Nat.le_succ n, ?_⟩
    rintro rfl
    rcases h'.life with hAlive | hExited
    · simp only [System.poll, hi.1, Bool.false_eq_true, if_false] at hReady
      cases hNext : s'.history.next .inner .pamVerifier with
      | some packet => exact ⟨packet, rfl⟩
      | none =>
        have hGone : s'.history.gone (Link.inner.source .pamVerifier) = false := hAlive.1
        simp [hNext, hGone] at hReady
    · exact h'.unread hExited
  · intro e hError
    simp only [System.poll, hi.1, Bool.false_eq_true, if_false] at hError
    split at hError
    · cases hError
    · split at hError <;> cases hError

/-- There is a packet to take, and those around the broker do not take it. -/
theorem Surroundings.keeps_next {s' : System} (hStep : Surroundings result s s')
    (hNext : s.history.next .inner .pamVerifier = some packet) :
    s'.history.next .inner .pamVerifier = some packet := by
  obtain ⟨es, hEq, hOthers⟩ := hStep.adds
  have hNone : es.takenOn .inner .pamVerifier = [] := takenOn_of_others hOthers
  unfold History.next at hNext ⊢
  obtain ⟨hBound, _⟩ := List.getElem?_eq_some_iff.mp hNext
  rw [hEq, History.takenOn_append, hNone, List.append_nil, History.sentOn_append,
    List.getElem?_append_left hBound]
  exact hNext

theorem wp_receiveWorker (h : Delivering result .verifying taken s) (hRounds : 0 < rounds)
    (hNext : s.history.next .inner .pamVerifier = some packet) :
    wp (deliverySetting result rounds bound)
      (fun heard t => advanceVerifierConversation .verifying .pamVerifier heard.1 = .ok heard.2 ∧
        Delivering result heard.2 (taken + 1) t.1 ∧ taken + 1 < rounds ∧ n ≤ t.2)
      E (receive rounds .inner .pamVerifier .verifying).clocked (s, n) := by
  obtain ⟨k, rfl⟩ := Nat.exists_eq_succ_of_ne_zero (Nat.ne_of_gt hRounds)
  rw [receive, Proc.loop, wp_clocked_bind]
  refine wp_clocked_atomically (J := fun s => Delivering result .verifying taken s ∧
    s.history.next .inner .pamVerifier = some packet) ?_ ⟨h, hNext⟩ fun s' i h' hi _ => ?_
  · exact fun _ _ hStep hJ => ⟨hJ.1.surroundings hStep, hStep.keeps_next hJ.2⟩
  obtain ⟨hDelivering, hAt⟩ := h'
  have hLess : taken + 1 < k + 1 := by
    obtain ⟨hBound, _⟩ := List.getElem?_eq_some_iff.mp hAt
    rw [hDelivering.count] at hBound
    exact Nat.lt_of_le_of_lt hBound hi.2.2.2
  have hFits := hDelivering.fits hAt
  have hHeard : ∃ heard, receiveAndAdvance (some packet) .verifying .pamVerifier = .ok heard := by
    by_contra hNone
    exact hFits fun heard hHeard => hNone ⟨heard, hHeard⟩
  obtain ⟨⟨message, next⟩, hHeard⟩ := hHeard
  obtain ⟨hMessage, hAdvance⟩ := receiveAndAdvance_eq_ok.mp hHeard
  have hEq : System.receive .inner .pamVerifier .verifying i s' =
      (.ok (some (message, next)), s'.log (.received .inner .pamVerifier packet)) := by
    simp [System.receive, hi.1, hAt, hHeard]
  rw [hEq]
  refine ⟨prefix_log s' _, ?_, fun _ hError => by cases hError⟩
  rintro _ ⟨⟩
  refine ⟨hAdvance, ?_, hLess, Nat.le_succ n⟩
  refine hDelivering.logs rfl ?_ (hDelivering.talk.received (encode_of_receive hMessage) hAdvance)
    (by rintro _ ⟨⟩)
  intro link sender packet' hTaken
  simp only [Happening.takenOn?] at hTaken
  split at hTaken
  · rename_i hWire
    obtain ⟨rfl, rfl⟩ := hWire
    cases hTaken
    exact hAt
  · cases hTaken

theorem wp_sendWorker {message : VerifierMessage} {next : VerifierConversationState}
    (h : Delivering result c taken s) (hAlive : ∀ s, Delivering result c taken s → Alive s)
    (hPacket : encodeVerifierMessage message = .ok packet)
    (hNext : advanceVerifierConversation c .daemon message = .ok next) :
    wp (deliverySetting result rounds bound)
      (fun _ t => Delivering result next taken t.1 ∧ n ≤ t.2) E
      (send .inner .daemon message).clocked (s, n) := by
  refine wp_clocked_atomically (fun _ _ => Delivering.surroundings) h fun s' i h' hi _ => ?_
  have hGone : s'.history.gone (Link.inner.target .daemon) = false := (hAlive s' h').1
  have hSend : sendVerifierMessage (!i.fails && !s'.history.gone (Link.inner.target .daemon)) message =
      .ok packet := by
    rw [hi.1, hGone]
    exact sendVerifierMessage_eq_ok.mpr ⟨hPacket, rfl⟩
  have hEq : System.send .inner .daemon message i s' =
      (.ok (), s'.log (.sent .inner .daemon packet)) := by
    unfold System.send
    rw [hSend]
  rw [hEq]
  refine ⟨prefix_log s' _, ?_, nofun⟩
  rintro _ ⟨⟩
  exact ⟨h'.logs rfl (fun _ _ _ hTaken => by cases hTaken) (h'.talk.sent hPacket hNext) nofun,
    Nat.le_succ n⟩

/-- What the broker learns from `waitpid`. -/
def Waited (result : VerificationResult) (bound : Nat) (c : VerifierConversationState)
    (taken n : Nat) : Option UInt8 → System × Nat → Prop
  | none, t => Delivering result c taken t.1 ∧ n < t.2 ∧ t.2 ≤ bound
  | some code, t => (c = .verifying → ¬ DrainedAtReap t.1.history) ∧
      ∀ r, c = .completed r → r = result ∧ (code = 0 ↔ result = .success)

theorem wp_waitWorker (h : Delivering result c taken s) :
    wp (deliverySetting result rounds bound) (Waited result bound c taken n) E
      childPoll.clocked (s, n) := by
  refine wp_clocked_atomically (fun _ _ => Delivering.surroundings) h fun s' i h' hi hDue => ?_
  simp only [hi.1, hi.2.1, Bool.false_eq_true, if_false]
  rcases h'.life with hAlive | hExited
  · rw [hAlive.2]
    have hEarly : n < bound := by
      rcases hDue with hEarly | hExit
      · exact hEarly
      · exact absurd hAlive.2 hExit
    refine ⟨List.prefix_refl _, ?_, nofun⟩
    rintro _ ⟨⟩
    exact ⟨h', Nat.lt_succ_self n, hEarly⟩
  · obtain ⟨code, hStatus, hCode, hRest⟩ := hExited
    rw [hStatus]
    refine ⟨prefix_log s' _, ?_, nofun⟩
    rintro _ ⟨⟩
    refine ⟨?_, ?_⟩
    · rintro rfl hDrained
      obtain ⟨packet, hNext⟩ := h'.unread ⟨code, hStatus, hCode, hRest⟩
      rw [hDrained s'.history _ [] rfl] at hNext
      cases hNext
    · rintro r rfl
      exact ⟨h'.eq_result ⟨code, hStatus, hCode, hRest⟩, hCode⟩

end Steps

/-! ## The loops -/

/-- Where the broker stands at the start of a round: it is verifying, or has the completion. -/
def Standing (result : VerificationResult) (rounds : Nat)
    (talk : VerifierConversationState × Option VerificationResult) (s : System) : Prop :=
  ∃ taken, taken < rounds ∧ Delivering result talk.1 taken s ∧
    (talk = (.verifying, none) ∨ ∃ r, talk = (.completed r, some r))

section Loops

variable {result : VerificationResult} {rounds bound n taken : Nat} {s : System}
  {C : ProgramCallbacks} {E : Exn → System × Nat → Prop}

theorem wp_receiveMessageWorker (hC : Cooperative C (callbackSetting result rounds))
    (h : Delivering result .verifying taken s) {packet : Bytes} (hRounds : 0 < rounds)
    (hNext : s.history.next .inner .pamVerifier = some packet) :
    wp (deliverySetting result rounds bound)
      (fun talk t => n ≤ t.2 ∧ taken + 1 < rounds ∧ Delivering result talk.1 (taken + 1) t.1 ∧
        (talk = (.verifying, none) ∨ ∃ r, talk = (.completed r, some r)))
      E (C.receiveMessage rounds .verifying).clocked (s, n) := by
  refine wp_clocked_bind.mpr (wp_mono (wp_receiveWorker h hRounds hNext) ?_ (fun _ _ h => h))
  rintro ⟨message, next⟩ ⟨s₁, n₁⟩ ⟨hAdvance, h₁, hLess, hn₁⟩
  change n ≤ n₁ at hn₁
  change Delivering result next (taken + 1) s₁ at h₁
  cases advances_of_ok hAdvance with
  | status status =>
    refine wp_clocked_bind.mpr (wp_mono (wp_callback (Q := fun _ => True)
      (hC.status status) h₁) ?_ (fun _ _ h => h))
    rintro _ ⟨s₂, n₂⟩ ⟨-, h₂, hn₂⟩
    exact ⟨Nat.le_trans hn₁ hn₂, hLess, h₂, .inl rfl⟩
  | prompt required =>
    refine wp_clocked_bind.mpr (wp_mono (wp_callback (hC.secret required) h₁) ?_ (fun _ _ h => h))
    rintro secret ⟨s₂, n₂⟩ ⟨⟨answer, hAnswer⟩, h₂, hn₂⟩
    refine wp_clocked_bind.mpr (wp_mono
      (wp_sendWorker h₂ (fun _ h => h.alive_of_prompt) hAnswer rfl) ?_ (fun _ _ h => h))
    rintro _ ⟨s₃, n₃⟩ ⟨h₃, hn₃⟩
    exact ⟨Nat.le_trans hn₁ (Nat.le_trans hn₂ hn₃), hLess, h₃, .inl rfl⟩
  | complete r => exact ⟨hn₁, hLess, h₁, .inr ⟨r, rfl⟩⟩

variable {talk : VerifierConversationState × Option VerificationResult}

/-- The inner loop ends: every further round takes a packet. -/
theorem wp_drainWorker (hC : Cooperative C (callbackSetting result rounds))
    (h : Standing result rounds talk s) :
    wp (deliverySetting result rounds bound)
      (fun talk t => Standing result rounds talk t.1 ∧ n ≤ t.2) E
      (C.drain rounds talk.1 talk.2).clocked (s, n) := by
  obtain ⟨taken, hLess, hDelivering, rfl | ⟨r, rfl⟩⟩ := h
  · refine wp_clocked_loop (fun k c t => ∃ taken, taken < rounds ∧ rounds ≤ k + taken ∧
      c = .verifying ∧ Delivering result .verifying taken t.1 ∧ n ≤ t.2) ?_ ?_
      ⟨taken, hLess, Nat.le_add_right _ _, rfl, hDelivering, Nat.le_refl n⟩
    · rintro c t ⟨taken, hLess, hRounds, -⟩
      omega
    · rintro k c ⟨s₁, n₁⟩ ⟨taken, hLess, hRounds, rfl, h₁, hn₁⟩
      refine wp_clocked_bind.mpr (wp_mono (wp_pollWorker h₁) ?_ (fun _ _ h => h))
      rintro ready ⟨s₂, n₂⟩ ⟨h₂, hn₂, hReady⟩
      have hEnd : Standing result rounds (.verifying, none) s₂ := ⟨taken, hLess, h₂, .inl rfl⟩
      cases ready with
      | nothing => exact ⟨hEnd, Nat.le_trans hn₁ hn₂⟩
      | hungUp => exact ⟨hEnd, Nat.le_trans hn₁ hn₂⟩
      | readable =>
        obtain ⟨packet, hNext⟩ := hReady rfl
        refine wp_clocked_bind.mpr (wp_mono
          (wp_receiveMessageWorker hC h₂ (Nat.zero_lt_of_lt hLess) hNext) ?_ (fun _ _ h => h))
        rintro talk ⟨s₃, n₃⟩ ⟨hn₃, hMore, h₃, rfl | ⟨r, rfl⟩⟩
        · exact ⟨taken + 1, hMore, by omega, rfl, h₃, Nat.le_trans hn₁ (Nat.le_trans hn₂ hn₃)⟩
        · exact ⟨⟨taken + 1, hMore, h₃, .inr ⟨r, rfl⟩⟩, Nat.le_trans hn₁ (Nat.le_trans hn₂ hn₃)⟩
  · exact ⟨⟨taken, hLess, hDelivering, .inr ⟨r, rfl⟩⟩, Nat.le_refl n⟩

theorem wp_checkCancelledWorker (hC : Cooperative C (callbackSetting result rounds))
    {c : VerifierConversationState} (h : Delivering result c taken s) :
    wp (deliverySetting result rounds bound)
      (fun _ t => Delivering result c taken t.1 ∧ n ≤ t.2) E (C.checkCancelled c).clocked (s, n) := by
  refine wp_clocked_bind.mpr (wp_mono (wp_callback hC.stop h) ?_ (fun _ _ h => h))
  rintro _ ⟨s₁, n₁⟩ ⟨rfl, h₁, hn₁⟩
  refine wp_clocked_bind.mpr (wp_mono (wp_callback hC.cancel h₁) ?_ (fun _ _ h => h))
  rintro _ ⟨s₂, n₂⟩ ⟨rfl, h₂, hn₂⟩
  exact ⟨h₂, Nat.le_trans hn₁ hn₂⟩

theorem conclude_result {code : UInt8} (hCode : code = 0 ↔ result = .success) :
    ProgramCallbacks.conclude code (some result) = .ok result := by
  have hSame : (code == 0) = (result == .success) := by
    rw [Bool.eq_iff_iff, beq_iff_eq, beq_iff_eq]
    exact hCode
  simp [ProgramCallbacks.conclude, hSame]

theorem wp_roundWorker (hC : Cooperative C (callbackSetting result rounds))
    (h : Standing result rounds talk s) :
    wp (deliverySetting result rounds bound) (fun r t => r.elim
        (fun talk => Standing result rounds talk t.1 ∧ n < t.2 ∧ t.2 ≤ bound + 1)
        (fun a => a = result))
      (fun _ t => ¬ DrainedAtReap t.1.history) (C.programRound rounds talk).clocked (s, n) := by
  refine wp_clocked_bind.mpr (wp_mono (wp_drainWorker hC h) ?_ (fun _ _ h => h))
  rintro ⟨c, completion⟩ ⟨s₁, n₁⟩ ⟨⟨taken, hLess, h₁, hTalk⟩, hn₁⟩
  refine wp_clocked_bind.mpr (wp_mono (wp_checkCancelledWorker hC h₁) ?_ (fun _ _ h => h))
  rintro _ ⟨s₂, n₂⟩ ⟨h₂, hn₂⟩
  refine wp_clocked_bind.mpr (wp_mono (wp_waitWorker h₂) ?_ (fun _ _ h => h))
  rintro status ⟨s₃, n₃⟩ hWaited
  change n ≤ n₁ at hn₁
  change n₁ ≤ n₂ at hn₂
  cases status with
  | none =>
    obtain ⟨h₃, hn₃, hEarly⟩ := hWaited
    change n₂ < n₃ at hn₃
    change n₃ ≤ bound at hEarly
    refine wp_clocked_bind.mpr (wp_clocked_atomically (fun _ _ => Delivering.surroundings)
      h₃ fun s₄ i h₄ hi _ => ⟨List.prefix_refl _, ?_, nofun⟩)
    intro expired hExpired
    obtain rfl : i.expired = expired := Except.ok.inj hExpired
    rw [hi.2.2.1]
    exact ⟨⟨taken, hLess, h₄, hTalk⟩, by change n < n₃ + 1; omega, by change n₃ + 1 ≤ _; omega⟩
  | some code =>
    obtain ⟨hLost, hResult⟩ := hWaited
    rcases hTalk with hTalk | ⟨r, hTalk⟩
    · cases hTalk
      exact hLost rfl
    · cases hTalk
      obtain ⟨rfl, hCode⟩ := hResult r rfl
      simp only [conclude_result hCode]
      rfl

/-- Nothing of this verification has happened yet. -/
structure Fresh (s : System) : Prop where
  fifo : s.history.Fifo
  unused : ∀ e ∈ s.history, e.onLink .inner = false
  alive : Alive s
  unreaped : ∀ status, .reaped status ∉ s.history

theorem Fresh.delivering (h : Fresh s) : Delivering result .awaitingStart 0 s where
  fifo := h.fifo
  talk := by
    rw [← List.nil_append (s.history.transcript .broker)]
    exact Conversation.nil.append_silent fun e he => h.unused e (List.mem_filter.mp he).1
  worker := by
    refine ⟨.awaitingStart, ?_⟩
    rw [← List.nil_append (s.history.transcript .worker)]
    exact Conversation.nil.append_silent fun e he => h.unused e (List.mem_filter.mp he).1
  unreaped := h.unreaped
  life := .inl h.alive
  count := by rw [takenOn_of_silent .pamVerifier h.unused]; rfl

theorem wp_programWorker (hC : Cooperative C (callbackSetting result rounds)) (hFresh : Fresh s)
    (username : Bytes) {start : StartVerification} {packet : Bytes}
    (hStart : encodeVerifierMessage (.start start) = .ok packet) (hRounds : bound + 1 < rounds) :
    wp (deliverySetting result rounds bound) (fun a _ => a = result)
      (fun _ t => ¬ DrainedAtReap t.1.history)
      (C.runCancellableVerifierProgram rounds username start).clocked (s, 0) := by
  refine wp_clocked_bind.mpr (wp_mono (wp_callback hC.stop hFresh.delivering) ?_ (fun _ _ h => h))
  rintro _ ⟨s₁, n₁⟩ ⟨rfl, h₁, -⟩
  refine wp_clocked_bind.mpr (wp_mono (wp_callback hC.cancel h₁) ?_ (fun _ _ h => h))
  rintro _ ⟨s₂, n₂⟩ ⟨rfl, h₂, -⟩
  refine wp_clocked_bind.mpr (wp_clocked_atomically (fun _ _ => Delivering.surroundings)
    h₂ fun s₃ i h₃ hi _ => ⟨List.prefix_refl _, ?_, ?_⟩)
  · intro _ _
    refine wp_clocked_bind.mpr (wp_clocked_atomically
      (fun _ _ => Delivering.surroundings) h₃ fun s₄ i h₄ hi _ => ?_)
    simp only [hi.1, Bool.false_eq_true, if_false]
    refine ⟨prefix_log s₄ _, ?_, nofun⟩
    intro _ _
    have h₅ : Delivering result .awaitingStart 0 (s₄.log (.spawned username)) :=
      Delivering.logs (e := .spawned username) h₄ rfl (fun _ _ _ hTaken => by cases hTaken)
        (h₄.talk.silent rfl) nofun
    refine wp_clocked_bind.mpr (wp_mono
      (wp_sendWorker h₅ (fun _ h => h.alive_of_start) hStart rfl) ?_ (fun _ _ h => h))
    rintro _ ⟨s₆, n₆⟩ ⟨h₆, -⟩
    refine wp_clocked_loop (fun k talk t => Standing result rounds talk t.1 ∧ 0 < k ∧
      bound + 1 < t.2 + k) ?_ ?_ ⟨⟨0, by omega, h₆, .inl rfl⟩, by omega, by omega⟩
    · rintro talk t ⟨-, hNever, -⟩
      exact absurd hNever (Nat.lt_irrefl 0)
    · rintro k talk ⟨s₇, n₇⟩ ⟨hStanding, -, hLeft⟩
      change bound + 1 < n₇ + (k + 1) at hLeft
      refine wp_mono (wp_roundWorker hC hStanding) ?_ (fun _ _ h => h)
      rintro r ⟨s₈, n₈⟩ hRound
      cases r with
      | inl talk =>
        obtain ⟨hNext, hMore, hEarly⟩ := hRound
        change n₇ < n₈ at hMore
        change n₈ ≤ bound + 1 at hEarly
        exact ⟨hNext, by omega, by change bound + 1 < n₈ + k; omega⟩
      | inr a => exact hRound
  · simp only [hi.1, Bool.false_eq_true, if_false]
    nofun

theorem DrainedAtReap.initial {h h' : History} (hDrained : DrainedAtReap h') (hPrefix : h <+: h') :
    DrainedAtReap h := by
  obtain ⟨rest, rfl⟩ := hPrefix
  intro h₁ status h₂ hEq
  exact hDrained h₁ status (h₂ ++ rest) (by rw [hEq]; simp)

theorem exitStatus_of_initial {h h' : History} (hPrefix : h <+: h') (hExit : h.exitStatus ≠ none) :
    h'.exitStatus ≠ none := by
  obtain ⟨rest, rfl⟩ := hPrefix
  obtain ⟨status, hStatus⟩ := Option.ne_none_iff_exists'.mp hExit
  unfold History.exitStatus at hStatus ⊢
  rw [List.findSome?_append, hStatus]
  nofun

theorem Surroundings.grows {s' : System} (hStep : Surroundings result s s') :
    s.history <+: s'.history := by
  obtain ⟨es, hEq, -⟩ := hStep.adds
  exact ⟨es, hEq.symm⟩

/-- **The result is delivered.** In every fair run in which the worker completes the protocol and
exits, whatever the interleaving: if each time that `waitpid` reports an exit nothing is left in
the socket, `run_cancellable_verifier_program` returns the worker's result and does not throw. The
exit is the one at `bound`; the loops have more rounds than there are steps up to then. -/
theorem verification_result_delivered {username : Bytes} {start : StartVerification}
    {c : Nat → PartyProc VerificationResult × System}
    (hRun : FairRun (Surroundings result) (Smooth rounds)
      (C.runCancellableVerifierProgram rounds username start) s c)
    (hC : Cooperative C (callbackSetting result rounds)) (hFresh : Fresh s)
    (hStart : ∃ packet, encodeVerifierMessage (.start start) = .ok packet)
    (hDrained : ∀ n, DrainedAtReap (c n).2.history)
    (hExit : (c bound).2.history.exitStatus ≠ none) (hRounds : bound + 1 < rounds) :
    (∃ n, (c n).1 = .done result) ∧ ∀ n e, (c n).1 ≠ .fail e := by
  obtain ⟨packet, hPacket⟩ := hStart
  have hwp := wp_programWorker hC hFresh username hPacket hRounds
  have hReturns := hRun.returns (F := fun _ s => ¬ DrainedAtReap s.history) hExit
    (fun _ _ hStep => exitStatus_of_initial hStep.grows) (fun _ _ hStep => exitStatus_of_initial hStep)
    hwp ?_
  · obtain ⟨⟨n, a, hDone, rfl⟩, hNever⟩ := hReturns
    exact ⟨⟨n, hDone⟩, hNever⟩
  · intro e n s₀ hRely hLost
    refine hLost ((hDrained n).initial ?_)
    exact kept_by_others (J := fun s' => s₀.history <+: s'.history)
      (fun _ _ hStep hPrefix => hPrefix.trans hStep.grows) hRely (List.prefix_refl _)

end Loops

/-! ## Two runs

The worker succeeds without a prompt: once it is done before the broker looks, and once it is
done between the two looks. -/

/-- The state of a conversation, followed through a transcript. -/
def followTalk (link : Link) (o : Option VerifierConversationState) (e : Happening) :
    Option VerifierConversationState :=
  match e with
  | .sent l sender packet | .received l sender packet =>
    if l = link then o.bind fun c => (receiveAndAdvance (some packet) c sender).toOption.map Prod.snd
    else o
  | .refused l _ _ => if l = link then none else o
  | _ => o

theorem conversation_of_followTalk {link : Link} {t : History} {c : VerifierConversationState}
    (h : t.foldl (followTalk link) (some .awaitingStart) = some c) :
    Conversation link t (some c) := by
  induction t using List.reverseRecOn generalizing c with
  | nil =>
    cases h
    exact .nil
  | append_singleton t e ih =>
    rw [List.foldl_append] at h
    simp only [List.foldl_cons, List.foldl_nil] at h
    have hFollows : ∀ {l : Link} {sender : VerifierMessageSender} {packet : Bytes},
        (if l = link then (t.foldl (followTalk link) (some .awaitingStart)).bind fun c =>
          (receiveAndAdvance (some packet) c sender).toOption.map Prod.snd
        else t.foldl (followTalk link) (some .awaitingStart)) = some c →
        (l ≠ link ∧ Conversation link t (some c)) ∨ (l = link ∧ ∃ c₁ message,
          Conversation link t (some c₁) ∧ encodeVerifierMessage message = .ok packet ∧
          advanceVerifierConversation c₁ sender message = .ok c) := by
      intro l sender packet hEq
      by_cases hLink : l = link
      · rw [if_pos hLink] at hEq
        obtain ⟨c₁, hBefore, hNext⟩ := Option.bind_eq_some_iff.mp hEq
        obtain ⟨⟨message, next⟩, hHeard, rfl⟩ := Option.map_eq_some_iff.mp hNext
        have hOk : receiveAndAdvance (some packet) c₁ sender = .ok (message, next) := by
          generalize receiveAndAdvance (some packet) c₁ sender = r at hHeard
          cases r with
          | ok heard => exact congrArg Except.ok (Option.some.inj hHeard)
          | error e => cases hHeard
        obtain ⟨hMessage, hAdvance⟩ := receiveAndAdvance_eq_ok.mp hOk
        exact .inr ⟨hLink, c₁, message, ih hBefore, encode_of_receive hMessage, hAdvance⟩
      · rw [if_neg hLink] at hEq
        exact .inl ⟨hLink, ih hEq⟩
    cases e with
    | sent l sender packet =>
      rcases hFollows h with ⟨hLink, hTalk⟩ | ⟨rfl, c₁, message, hTalk, hPacket, hNext⟩
      · exact hTalk.silent (by simp [Happening.onLink, hLink])
      · exact hTalk.sent hPacket hNext
    | received l sender packet =>
      rcases hFollows h with ⟨hLink, hTalk⟩ | ⟨rfl, c₁, message, hTalk, hPacket, hNext⟩
      · exact hTalk.silent (by simp [Happening.onLink, hLink])
      · exact hTalk.received hPacket hNext
    | refused l sender packet =>
      simp only [followTalk] at h
      split at h
      · cases h
      · rename_i hLink
        exact (ih h).silent (by simp [Happening.onLink, hLink])
    | _ => exact (ih h).silent rfl

/-- What the worker of a script may do next. -/
def workerMoves (result : VerificationResult) (s : System) (e : Happening) : Bool :=
  !s.history.gone .worker &&
    match e with
    | .received .inner .daemon packet => s.history.next .inner .daemon == some packet &&
        ((s.history.transcript .worker ++ [e]).foldl (followTalk .inner) (some .awaitingStart)).isSome
    | .sent .inner .pamVerifier _ =>
      ((s.history.transcript .worker ++ [e]).foldl (followTalk .inner) (some .awaitingStart)).isSome
    | .exited (.exited code) =>
      (s.history.transcript .worker).foldl (followTalk .inner) (some .awaitingStart) ==
        some (.completed result) && decide (code = 0 ↔ result = .success) &&
        !promptOutstanding s.history
    | _ => false

theorem surroundings_of_workerMoves {result : VerificationResult} {s : System} {e : Happening}
    (h : workerMoves result s e = true) : Surroundings result s (s.log e) := by
  obtain ⟨hAlive, h⟩ := (Bool.and_eq_true _ _).mp h
  have hAlive : s.history.gone .worker = false := by simpa using hAlive
  have hTalks : ∀ {e : Happening}, e.owner = some .worker → Writes .worker s (s.log e) →
      ((s.history.transcript .worker ++ [e]).foldl (followTalk .inner)
        (some .awaitingStart)).isSome = true → Surroundings result s (s.log e) := by
    intro e hOwner hWrites hSome
    obtain ⟨c, hc⟩ := Option.isSome_iff_exists.mp hSome
    have hView : (s.log e).history.transcript .worker = s.history.transcript .worker ++ [e] :=
      congrArg Prod.fst (view_log hOwner)
    exact .talks hAlive hWrites (hView ▸ conversation_of_followTalk hc)
  cases e with
  | received link sender packet =>
    cases link with
    | outer => cases h
    | inner =>
      cases sender with
      | daemon =>
        obtain ⟨hNext, hSome⟩ := (Bool.and_eq_true _ _).mp h
        exact hTalks rfl (writes_taken rfl (.inl rfl) (beq_iff_eq.mp hNext)) hSome
      | pamVerifier => cases h
  | sent link sender packet =>
    cases link with
    | outer => cases h
    | inner =>
      cases sender with
      | daemon => cases h
      | pamVerifier => exact hTalks rfl (writes_sent (p := .worker) rfl packet) h
  | exited status =>
    cases status with
    | exited code =>
      simp only [Bool.and_eq_true, beq_iff_eq, decide_eq_true_eq, Bool.not_eq_true'] at h
      exact .exits hAlive (conversation_of_followTalk h.1.1) h.1.2 h.2
    | _ => cases h
  | _ => cases h

/-- Callbacks that just return. -/
def quietCallbacks : ProgramCallbacks where
  stopRequested := return false
  status := fun _ => return ()
  secret := fun _ => return []
  cancellationRequested := return false

theorem quietCallbacks_cooperative (S : Setting System Input) : Cooperative quietCallbacks S where
  stop := fun _ => rfl
  cancel := fun _ => rfl
  status := fun _ _ => trivial
  secret := fun _ _ => ⟨_, rfl⟩

theorem fresh_initial : Fresh {} where
  fifo := fun _ _ => List.prefix_refl _
  unused := nofun
  alive := ⟨rfl, rfl⟩
  unreaped := nofun

/-- The worker takes the start packet, succeeds and exits. -/
def workerScript : List (Input ⊕ Happening) :=
  [.inr (.received .inner .daemon (setHeader .start [0, 0, 3, 232, 99, 50])),
    .inr (.sent .inner .pamVerifier successPacket), .inr (.exited (.exited 0))]

/-- The worker is done before the broker looks. -/
def promptScript : List (Input ⊕ Happening) :=
  List.replicate 3 (.inl {}) ++ workerScript ++ List.replicate 3 (.inl {})

/-- The worker is done between the look at the socket and `waitpid`. -/
def hurriedScript : List (Input ⊕ Happening) :=
  List.replicate 4 (.inl {}) ++ workerScript ++ [.inl {}]

def smooth (rounds : Nat) (s : System) (i : Input) : Bool :=
  !i.fails && !i.interrupted && !i.expired &&
    decide ((s.history.sentOn .inner .pamVerifier).length < rounds)

theorem smooth_iff (rounds : Nat) (s : System) (i : Input) :
    smooth rounds s i = true ↔ Smooth rounds s i := by
  simp [smooth, Smooth, and_assoc]

def drained (h : History) : Bool :=
  (List.range h.length).all fun n =>
    match h[n]? with
    | some (.reaped _) => History.next (h.take n) .inner .pamVerifier == none
    | _ => true

theorem drained_spec {h : History} (hDrained : drained h = true) : DrainedAtReap h := by
  intro h₁ status h₂ hEq
  have hAt := List.all_eq_true.mp hDrained h₁.length (List.mem_range.mpr (by rw [hEq]; simp))
  rw [hEq, List.getElem?_append_right (Nat.le_refl _), Nat.sub_self, List.take_left' rfl] at hAt
  exact beq_iff_eq.mp hAt

abbrev program (rounds : Nat) : PartyProc VerificationResult :=
  quietCallbacks.runCancellableVerifierProgram rounds [97] request

def lostResult : PartyProc VerificationResult → Bool
  | .fail (.runtimeError what) => what == "verifier exited without a completion message"
  | _ => false

abbrev promptRun : Nat → PartyProc VerificationResult × System :=
  along (smooth 20) System.log (workerMoves .success) promptScript (program 20, {})

/-- The run in which the worker is done before the broker looks. -/
theorem verification_result_delivered_prompt : (∃ n, (promptRun n).1 = .done .success) ∧
    ∀ n e, (promptRun n).1 ≠ .fail e := by
  have hEnds : (follow (smooth 20) System.log (workerMoves .success) promptScript
      (program 20, {})).any (fun c => !c.1.running) = true := by
    decide +kernel
  obtain ⟨c', hFollow, hEnded⟩ := (Option.any_eq_true _ _).mp hEnds
  have hRun : FairRun (Surroundings .success) (Smooth 20) (program 20) {} promptRun :=
    fairRun_along (fun s i => (smooth_iff 20 s i).mp)
      (fun s e => surroundings_of_workerMoves (s := s) (e := e)) hFollow (by simpa using hEnded)
  have hChecked : (List.range (promptScript.length + 1)).all
      (fun n => drained (promptRun n).2.history) = true := by
    decide +kernel
  have hDrained : ∀ n, DrainedAtReap (promptRun n).2.history := by
    intro n
    rcases Nat.lt_or_ge n (promptScript.length + 1) with hn | hn
    · exact drained_spec (List.all_eq_true.mp hChecked n (List.mem_range.mpr hn))
    · rw [promptRun, along_of_le (by omega)]
      exact drained_spec (List.all_eq_true.mp hChecked _ (List.mem_range.mpr (Nat.lt_succ_self _)))
  have hExit : (promptRun 6).2.history.exitStatus ≠ none := by decide +kernel
  exact verification_result_delivered hRun (quietCallbacks_cooperative _) fresh_initial ⟨_, rfl⟩
    hDrained hExit (by decide)

/-- **The result is lost.** The worker completes with success and exits with status 0 after the
broker has looked at the socket and before it looks at the worker. -/
theorem verification_result_lost : ∃ s, Steps (Surroundings .success) (Smooth 20) (program 20, {})
      (.fail (.runtimeError "verifier exited without a completion message"), s) := by
  have hEnds : (follow (smooth 20) System.log (workerMoves .success) hurriedScript
      (program 20, {})).any (fun c => lostResult c.1) = true := by
    decide +kernel
  obtain ⟨⟨p, s⟩, hFollow, hLost⟩ := (Option.any_eq_true _ _).mp hEnds
  have hSteps := steps_follow (fun s i => (smooth_iff 20 s i).mp)
    (fun s e => surroundings_of_workerMoves (s := s) (e := e)) hurriedScript hFollow
  refine ⟨s, ?_⟩
  cases p with
  | fail e =>
    cases e with
    | runtimeError what =>
      obtain rfl := beq_iff_eq.mp hLost
      exact hSteps
    | _ => cases hLost
  | _ => cases hLost

end VAuth.Verifier
