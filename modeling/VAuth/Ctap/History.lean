import VAuth.Ctap.Authenticator

/-!
# Where replies come from

Every reply in the log of a run has an explanation (`Explained`): it is a refusal, the
information of the device, a registration, the first assertion of a GetAssertion, or a
continuation. A continuation is explained by its past: the GetAssertion that opened the
sequence, and after it nothing but earlier continuations and refused GetNextAssertion
commands of other channels (`Chain`). While a sequence lives, `Tracks` ties the request
object of the handler to that part of the log.
-/

namespace VAuth.Ctap

open Proc Store

/-! ## Sequences in the log -/

/-- A GetAssertion that returned an assertion, and what it read and found. -/
structure Opening where
  reply : Reply
  parameters : AssertionParameters
  user : UserContext
  credential : StoredCredential
  remaining : List StoredCredential

/-- The request object behind the assertions of an opening. -/
def Opening.request (o : Opening) : CTAPGetAssertionRequest :=
  { o.parameters with userPresent := o.parameters.up, userVerified := o.parameters.uv }

structure Opening.Valid (L : Libraries) (o : Opening) : Prop where
  command : o.reply.request.command = 0x02
  parsed : CTAPGetAssertionRequest.parseRequest L.walk o.reply.request.parameters =
    some { o.parameters with }
  context : o.reply.ceremony.user = some o.user
  found : o.reply.ceremony.found = o.credential :: o.remaining
  approved : o.reply.ceremony.interactions = approvals o.parameters o.user
  packet : o.reply.packet = successPacket o.reply.request.cid o.reply.packet.payload
  asserts : Asserts L o.request o.credential o.reply.ceremony o.reply.packet.payload

/-- A GetNextAssertion that returned the next credential of the sequence. -/
structure Opening.Continues (L : Libraries) (o : Opening) (credential : StoredCredential)
    (lastUse now : Int) (r : Reply) : Prop where
  command : r.request.command = 0x08
  cid : r.request.cid = o.reply.request.cid
  context : ∃ user, r.ceremony.user = some user ∧ user.binding = o.user.binding
  silent : r.ceremony.interactions = []
  used : r.ceremony.used = some now
  gap : now - lastUse ≤ AssertionSequence.timeout
  packet : r.packet = successPacket r.request.cid r.packet.payload
  asserts : Asserts L o.request credential r.ceremony r.packet.payload

/-- A GetNextAssertion that was refused because of its channel. -/
structure Opening.Elsewhere (o : Opening) (r : Reply) : Prop where
  command : r.request.command = 0x08
  cid : r.request.cid ≠ o.reply.request.cid
  packet : r.packet = makeCborError r.request.cid CTAPError.notAllowed.code

/-- What happened since the opening, the credentials that are left and the time of the last
use. -/
inductive Chain (L : Libraries) (o : Opening) : List Event → List StoredCredential → Int → Prop
  | begun {now : Int} (hUsed : o.reply.ceremony.used = some now) : Chain L o [] o.remaining now
  | continued {since : List Event} {credential : StoredCredential} {pending : List StoredCredential}
      {lastUse now : Int} {r : Reply} (h : Chain L o since (credential :: pending) lastUse)
      (hr : o.Continues L credential lastUse now r) :
      Chain L o (since ++ [.replied r]) pending now
  | elsewhere {since : List Event} {pending : List StoredCredential} {lastUse : Int} {r : Reply}
      (h : Chain L o since pending lastUse) (hr : o.Elsewhere r) :
      Chain L o (since ++ [.replied r]) pending lastUse

/-- The sequence of the request object was opened by `o`, with these events since. -/
structure Tracks (L : Libraries) (o : Opening) (since : List Event) (g : CTAPGetAssertionRequest) :
    Prop where
  valid : o.Valid L
  allowList : o.parameters.allowList = []
  chain : Chain L o since g.sequence.pending g.sequence.lastUse
  cid : g.sequence.originCid = o.reply.request.cid
  owner : g.sequence.ownerContext = some o.user.binding
  request : g = { o.request with sequence := g.sequence }

/-- There is a sequence. -/
def CTAPGetAssertionRequest.Live (g : CTAPGetAssertionRequest) : Prop := g.sequence.originCid ≠ 0

/-! ## Commands -/

section Commands

variable {L : Libraries} {C : Setting Daemon Input} {Ran Failed : Operation → World → World → Prop}
  {request : CborRequest} {d d' : Daemon} {packet : CTAPPacket}

/-- The reply a command leaves in the log. -/
def Daemon.reply (d : Daemon) (request : CborRequest) (packet : CTAPPacket) : Reply :=
  ⟨request, packet, d.ceremony, d.world⟩

theorem not_live_of_cleared (h : d.getAssertion = {}) : ¬ d.getAssertion.Live := by
  rw [CTAPGetAssertionRequest.Live, h]
  exact not_not.mpr rfl

variable {user : UserContext} {credential : StoredCredential} {payload : Bytes} {o : Opening}
  {since : List Event} {parameters : AssertionParameters} {remaining : List StoredCredential}

theorem Asserted.valid (hCommand : request.command = 0x02)
    (hParsed : CTAPGetAssertionRequest.parseRequest L.walk request.parameters =
      some { parameters with })
    (h : Asserted L Ran parameters request.cid user credential remaining d d' payload) :
    Opening.Valid L ⟨d'.reply request (successPacket request.cid payload), parameters, user,
      credential, remaining⟩ where
  command := hCommand
  parsed := hParsed
  context := h.context
  found := h.recorded
  approved := h.approved
  packet := rfl
  asserts := by
    have hAsserts := h.asserts
    rw [h.state] at hAsserts
    exact ⟨hAsserts.authData, hAsserts.credentialId, hAsserts.signed, hAsserts.length⟩

theorem Asserted.tracks (hCommand : request.command = 0x02)
    (hParsed : CTAPGetAssertionRequest.parseRequest L.walk request.parameters =
      some { parameters with })
    (h : Asserted L Ran parameters request.cid user credential remaining d d' payload)
    (hLive : d'.getAssertion.Live) :
    Tracks L ⟨d'.reply request (successPacket request.cid payload), parameters, user, credential,
      remaining⟩ [] d'.getAssertion := by
  have hBegins := h.begins
  unfold Begins at hBegins
  by_cases hMore : hasAssertionContinuations parameters.allowList.isEmpty (remaining.length + 1) = true
  · rw [if_pos hMore] at hBegins
    obtain ⟨now, hUsed, hSequence⟩ := hBegins
    simp only [hasAssertionContinuations, Bool.and_eq_true, List.isEmpty_iff] at hMore
    by_cases hEmpty : request.cid = 0 ∨ remaining = []
    · rw [AssertionSequence.begun, if_pos hEmpty] at hSequence
      rw [CTAPGetAssertionRequest.Live, hSequence] at hLive
      exact (hLive rfl).elim
    · rw [AssertionSequence.begun, if_neg hEmpty] at hSequence
      refine ⟨h.valid hCommand hParsed, hMore.1, ?_, ?_, ?_, h.state⟩
      · rw [hSequence]
        exact .begun hUsed
      · rw [hSequence]
        rfl
      · rw [hSequence]
  · rw [if_neg hMore] at hBegins
    rw [CTAPGetAssertionRequest.Live, hBegins] at hLive
    exact (hLive rfl).elim

theorem Continued.continues (hCommand : request.command = 0x08)
    (h : Continued L Ran request.cid user credential d d' payload)
    (hTracks : Tracks L o since d.getAssertion) :
    ∃ now, d.getAssertion.sequence.Advances request.cid user now credential
        d'.getAssertion.sequence ∧
      o.Continues L credential d.getAssertion.sequence.lastUse now
        (d'.reply request (successPacket request.cid payload)) := by
  obtain ⟨now, hUsed, hAdvances⟩ := h.next
  refine ⟨now, hAdvances, ?_⟩
  have hBinding : user.binding = o.user.binding :=
    Option.some.inj (hAdvances.owner.symm.trans hTracks.owner)
  have hAsserts := h.asserts
  rw [h.state, hTracks.request] at hAsserts
  exact {
    command := hCommand
    cid := hAdvances.origin.1.symm.trans hTracks.cid
    context := ⟨user, h.context, hBinding⟩
    silent := h.silent
    used := hUsed
    gap := hAdvances.gap
    packet := rfl
    asserts := ⟨hAsserts.authData, hAsserts.credentialId, hAsserts.signed, hAsserts.length⟩ }

/-- The sequence goes on after a continuation that was not its last. -/
theorem Continued.tracks (hCommand : request.command = 0x08)
    (h : Continued L Ran request.cid user credential d d' payload)
    (hTracks : Tracks L o since d.getAssertion) (hLive : d'.getAssertion.Live) :
    Tracks L o (since ++ [.replied (d'.reply request (successPacket request.cid payload))])
      d'.getAssertion := by
  obtain ⟨now, hAdvances, hContinues⟩ := h.continues hCommand hTracks
  have hChain := hTracks.chain
  rw [hAdvances.pending] at hChain
  rcases hAdvances.after with hOver | hOn
  · rw [CTAPGetAssertionRequest.Live, hOver] at hLive
    exact (hLive rfl).elim
  · have hNext := hChain.continued hContinues
    refine ⟨hTracks.valid, hTracks.allowList, ?_, ?_, ?_, ?_⟩
    · have hNow : d'.getAssertion.sequence.lastUse = now := by rw [hOn]
      rw [hNow]
      exact hNext
    · rw [hOn]
      exact hTracks.cid
    · rw [hOn]
      exact hTracks.owner
    · have hState := h.state
      rw [hTracks.request] at hState
      exact hState

theorem Tracks.elsewhere {r : Reply} (hTracks : Tracks L o since d.getAssertion)
    (hCommand : r.request.command = 0x08) (hForeign : Foreign r.request d)
    (hLive : d.getAssertion.Live)
    (hPacket : r.packet = makeCborError r.request.cid CTAPError.notAllowed.code) :
    Tracks L o (since ++ [.replied r]) d.getAssertion := by
  have hCid : r.request.cid ≠ o.reply.request.cid := by
    rw [← hTracks.cid]
    rcases hForeign with hNone | hOther
    · exact absurd hNone hLive
    · exact hOther.symm
  exact { hTracks with chain := hTracks.chain.elsewhere ⟨hCommand, hCid, hPacket⟩ }

/-- A sequence that lives after a command was opened by it, or goes on. -/
theorem Handled.tracks (h : Handled L C Ran Failed request d packet d') (hLive : d'.getAssertion.Live) :
    (∃ o : Opening, o.reply = d'.reply request packet ∧ Tracks L o [] d'.getAssertion) ∨
      d.getAssertion.Live ∧ ∀ o since, Tracks L o since d.getAssertion →
        Tracks L o (since ++ [.replied (d'.reply request packet)]) d'.getAssertion := by
  cases h with
  | refused hDropped => exact absurd hLive (not_live_of_cleared hDropped.2)
  | foreign hCommand hForeign =>
    exact .inr ⟨hLive, fun o since hTracks => hTracks.elsewhere hCommand hForeign hLive rfl⟩
  | info _ _ => exact absurd hLive (not_live_of_cleared rfl)
  | registered _ _ h => exact absurd hLive (not_live_of_cleared h.cleared)
  | asserted hCommand hParsed h => exact .inl ⟨_, rfl, h.tracks hCommand hParsed hLive⟩
  | continued hCommand hOrigin h =>
    refine .inr ⟨fun hNone => hOrigin (.inl hNone), fun o since hTracks => ?_⟩
    exact h.tracks hCommand hTracks hLive

end Commands

/-! ## Every run -/

/-- Why a reply stands in the log after these events. -/
inductive Explained (L : Libraries) (past : List Event) (r : Reply) : Prop
  | refused {error : CTAPError} (hPacket : r.packet = makeCborError r.request.cid error.code)
  | info (hCommand : r.request.command = 0x04)
  | registered {makeCredential : CTAPMakeCredentialRequest} {user : UserContext} {credId : Bytes}
      {key : CredentialKey} (hCommand : r.request.command = 0x01)
      (hParsed : CTAPMakeCredentialRequest.parseRequest L.walk r.request.parameters =
        some makeCredential)
      (hContext : r.ceremony.user = some user)
      (hApproved : r.ceremony.interactions = [registrationApproval makeCredential user])
      (hAttests : Attests L makeCredential credId key r.ceremony r.packet.payload)
  | asserted {o : Opening} (hReply : o.reply = r) (hValid : o.Valid L)
  | continued {before since : List Event} {o : Opening} {credential : StoredCredential}
      {pending : List StoredCredential} {lastUse now : Int}
      (hPast : past = before ++ .replied o.reply :: since) (hValid : o.Valid L)
      (hAllowList : o.parameters.allowList = [])
      (hChain : Chain L o since (credential :: pending) lastUse)
      (hContinues : o.Continues L credential lastUse now r)

def AllExplained (L : Libraries) (log : List Event) : Prop :=
  ∀ past r rest, log = past ++ .replied r :: rest → Explained L past r

/-- The sequence of the request object was opened in the log. -/
def Opened (L : Libraries) (log : List Event) (g : CTAPGetAssertionRequest) : Prop :=
  g.Live → ∃ before o since, log = before ++ .replied o.reply :: since ∧ Tracks L o since g

section Runs

variable {L : Libraries} {C : Setting Daemon Input} {Ran Failed : Operation → World → World → Prop}
  {request : CborRequest} {d d' : Daemon} {packet : CTAPPacket} {log : List Event} {event : Event}

theorem AllExplained.append (h : AllExplained L log)
    (hEvent : ∀ r, event = .replied r → Explained L log r) : AllExplained L (log ++ [event]) := by
  intro past r rest hLog
  rcases List.eq_nil_or_concat rest with rfl | ⟨rest', last, rfl⟩
  · obtain ⟨rfl, hLast⟩ := List.append_inj' hLog rfl
    exact hEvent r (List.cons.inj hLast).1
  · rw [List.concat_eq_append, ← List.cons_append, ← List.append_assoc] at hLog
    exact h past r rest' (List.append_inj' hLog rfl).1

/-- An event that is no reply needs no explanation. -/
theorem AllExplained.append_other (h : AllExplained L log) (hOther : ∀ r, event ≠ .replied r) :
    AllExplained L (log ++ [event]) :=
  h.append fun r hr => absurd hr (hOther r)

theorem Handled.explained (h : Handled L C Ran Failed request d packet d')
    (hOpened : Opened L log d.getAssertion) : Explained L log (d'.reply request packet) := by
  cases h with
  | refused hDropped => exact .refused rfl
  | foreign hCommand hForeign => exact .refused rfl
  | info hCommand _ => exact .info hCommand
  | registered hCommand hParsed h => exact .registered hCommand hParsed h.context h.approved h.attests
  | asserted hCommand hParsed h => exact .asserted rfl (h.valid hCommand hParsed)
  | continued hCommand hOrigin h =>
    obtain ⟨before, o, since, hLog, hTracks⟩ := hOpened fun hNone => hOrigin (.inl hNone)
    obtain ⟨now, hAdvances, hContinues⟩ := h.continues hCommand hTracks
    exact .continued hLog hTracks.valid hTracks.allowList (hAdvances.pending ▸ hTracks.chain)
      hContinues

theorem Opened.handled (hOpened : Opened L log d.getAssertion)
    (h : Handled L C Ran Failed request d packet d') :
    Opened L (log ++ [.replied (d'.reply request packet)]) d'.getAssertion := by
  intro hLive
  rcases h.tracks hLive with ⟨o, hReply, hTracks⟩ | ⟨hBefore, hTracks⟩
  · exact ⟨log, o, [], by rw [hReply], hTracks⟩
  · obtain ⟨before, o, since, rfl, hOld⟩ := hOpened hBefore
    exact ⟨before, o, _, by simp, hTracks o since hOld⟩

variable {admits : Daemon → Input → Prop}

theorem storeRuns_any (d : Daemon) {I : Daemon → Prop} (hI : ∀ d', I d') :
    StoreRuns L (.among Service.nobody admits fun _ d' => I d') (fun _ _ _ => True)
      (fun _ _ _ => True) d := by
  intro op d' _ _
  exact wp_withStore_alone (I := fun _ => True) (fun _ _ => hI _)
    (wp_trivial (fun _ _ => trivial) trivial)

theorem wp_serve_explained (hAll : AllExplained L log) (hOpened : Opened L log d.getAssertion) :
    wp (.among Service.nobody admits fun _ _ => AllExplained L log)
      (fun packet d' => AllExplained L (log ++ [.replied (d'.reply request packet)]) ∧
        Opened L (log ++ [.replied (d'.reply request packet)]) d'.getAssertion)
      (fun _ d' => AllExplained L (log ++ [.threw request]) ∧
        Opened L (log ++ [.threw request]) d'.getAssertion)
      (serve L request) d := by
  refine wp_mono (wp_serve (Service.keeps_nobody.mono fun _ _ => hAll)
    (storeRuns_any d.newRecord fun _ => hAll)) ?_ ?_
  · intro packet d' hHandled
    have hOpened : Opened L log d.newRecord.getAssertion := hOpened
    refine ⟨hAll.append fun r hr => ?_, hOpened.handled hHandled⟩
    cases hr
    exact hHandled.explained hOpened
  · intro e d' hDropped
    exact ⟨hAll.append_other fun _ => Event.noConfusion,
      fun hLive => absurd hLive (not_live_of_cleared hDropped.2)⟩

theorem authenticator_explained (L : Libraries) (admits : Daemon → Input → Prop) :
    (authenticator L).Invariant Service.nobody admits (fun _ log => AllExplained L log)
      (fun d log => AllExplained L log ∧ Opened L log d.getAssertion) := by
  refine .alone ?_ ?_ (fun _ _ h => h) (fun _ _ _ h => h.1) (fun _ _ h => h.1)
  · intro d log hAll
    refine wp_seq (wp_withStore_alone (I := fun _ => True) (fun _ _ => hAll)
      (wp_trivial (fun _ _ => trivial) trivial)) ?_ ?_
    · rintro _ _ ⟨w, -, rfl⟩
      exact ⟨hAll.append_other fun _ => Event.noConfusion, fun hLive => (hLive rfl).elim⟩
    · rintro e d' -
      show AllExplained L (log ++ [])
      rwa [List.append_nil]
  · intro k d log hAccepts hReady
    cases k with
    | load => cases hAccepts
    | command request =>
      refine wp_seq (wp_serve_explained hReady.1 hReady.2) ?_ ?_
      · intro packet d' h
        exact h
      · intro e d' h
        exact h
    | reset =>
      refine wp_bind.mpr (wp_keeps_modify Service.keeps_nobody hReady.1 ?_)
      exact ⟨hReady.1.append_other fun _ => Event.noConfusion,
        fun hLive => absurd hLive (not_live_of_cleared rfl)⟩

theorem allExplained_of_steps {w : World}
    {c : Service.Config Daemon Input Exn AuthenticatorCall (Option CTAPPacket) (List Event)}
    (hRun : Service.Steps (authenticator L) Service.nobody admits ⟨.down, { world := w }, []⟩ c) :
    AllExplained L c.ghost := by
  have hStart : AllExplained L [] := fun past r rest hLog => by
    cases past <;> cases hLog
  have hHolds := (authenticator_explained L admits).holds (c := ⟨.down, { world := w }, []⟩) hStart hRun
  obtain ⟨φ, d, log⟩ := c
  cases φ with
  | down => exact hHolds
  | ready => exact hHolds.1
  | busy booting k p => exact hHolds.1

end Runs

end VAuth.Ctap
