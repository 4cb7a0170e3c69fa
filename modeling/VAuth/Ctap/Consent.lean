import VAuth.Ctap.History

/-!
# Consent flags

The UP and UV flags of a reply, against the user interactions of the ceremony behind it. The
ceremony of a GetNextAssertion is that of the GetAssertion that began its sequence: the last
one in the log, with nothing after it but GetNextAssertion commands.
-/

namespace VAuth.Ctap

open Proc Store

/-- The ceremony behind a reply. -/
inductive Behind (past : List Event) (r : Reply) : Reply → Prop
  | itself (hCommand : r.request.command ≠ 0x08) : Behind past r r
  | opening {before since : List Event} {o : Reply} (hCommand : r.request.command = 0x08)
      (hPast : past = before ++ .replied o :: since) (hOpening : o.request.command = 0x02)
      (hSucceeded : o.succeeded = true) (hCid : o.request.cid = r.request.cid)
      (hSince : ∀ e ∈ since, ∃ q : Reply, e = .replied q ∧ q.request.command = 0x08) :
      Behind past r o

/-- The relying party that a registration or an assertion asks for. -/
def requestedRp (L : Libraries) (request : CborRequest) : Option Bytes :=
  if request.command = 0x01 then
    (CTAPMakeCredentialRequest.parseRequest L.walk request.parameters).map fun r => r.rp.id
  else
    (CTAPGetAssertionRequest.parseRequest L.walk request.parameters).map fun r => r.rpId

/-- The flags say what the user did in the ceremony. -/
structure Authentic (L : Libraries) (o : Reply) (user : UserContext) (flags : UInt8) : Prop where
  context : o.ceremony.user = some user
  verified : flags &&& 0x04 ≠ 0 → ∃ i ∈ o.ceremony.interactions, i.kind = .verification ∧
    i.user = user ∧ requestedRp L o.request = some i.request.relyingPartyId ∧
    i.result = .ok .approved
  present : flags &&& 0x01 ≠ 0 → ∃ i ∈ o.ceremony.interactions, i.result = .ok .approved
  unasked : flags &&& 0x05 = 0 → o.request.command = 0x02 ∧
    ∃ parameters : AssertionParameters,
      CTAPGetAssertionRequest.parseRequest L.walk o.request.parameters = some { parameters with } ∧
      parameters.up = false ∧ parameters.uv = false
  approved : ∀ i ∈ o.ceremony.interactions, i.result = .ok .approved

section Flags

variable {L : Libraries} {r : Reply} {payload : Bytes} {ceremony : Ceremony}
  {request : CTAPMakeCredentialRequest} {parameters : AssertionParameters}
  {credential : StoredCredential}

theorem Attests.flags {credId : Bytes} {key : CredentialKey} (hL : L.Lawful)
    (h : Attests L request credId key ceremony payload) :
    ∃ authData, authDataOf payload = some authData ∧ flagsOf authData = some request.flags := by
  obtain ⟨cose, hAuthData⟩ := h.authData
  refine ⟨_, hAuthData, ?_⟩
  have hPrefix : request.authDataPrefix L credId ++ cose = L.sha256 request.rp.id ++ (request.flags ::
      (signCountBytes 0 ++ aaguid ++ [(UInt16.ofNat credId.length >>> 8).toUInt8,
        (UInt16.ofNat credId.length).toUInt8] ++ credId ++ cose)) := by
    simp [CTAPMakeCredentialRequest.authDataPrefix]
  rw [hPrefix, flagsOf, List.getElem?_append_right (by rw [hL.sha256_length]), hL.sha256_length]
  rfl

theorem authentic_registration {user : UserContext} (hCommand : r.request.command = 0x01)
    (hParsed : CTAPMakeCredentialRequest.parseRequest L.walk r.request.parameters = some request)
    (hContext : r.ceremony.user = some user)
    (hApproved : r.ceremony.interactions = [registrationApproval request user]) :
    Authentic L r user request.flags := by
  have hRp : requestedRp L r.request = some request.rp.id := by
    rw [requestedRp, if_pos hCommand, hParsed]
    rfl
  refine ⟨hContext, ?_, ?_, ?_, ?_⟩
  · intro hVerified
    refine ⟨_, by rw [hApproved]; exact List.mem_cons_self, ?_, rfl, hRp, rfl⟩
    by_cases hUv : request.uv = true
    · simp [registrationApproval, hUv]
    · rw [CTAPMakeCredentialRequest.flags, if_neg hUv] at hVerified
      exact absurd (by decide) hVerified
  · intro _
    exact ⟨_, by rw [hApproved]; exact List.mem_cons_self, rfl⟩
  · intro hClear
    unfold CTAPMakeCredentialRequest.flags at hClear
    by_cases hUv : request.uv = true
    · rw [if_pos hUv] at hClear
      exact absurd hClear (by decide)
    · rw [if_neg hUv] at hClear
      exact absurd hClear (by decide)
  · rw [hApproved]
    intro i hi
    rw [List.mem_singleton.mp hi]
    rfl

theorem flags_verified (up uv : Bool) : assertionAuthenticatorFlags up uv &&& 0x04 ≠ 0 ↔ uv = true := by
  cases up <;> cases uv <;> decide

theorem flags_present (up uv : Bool) : assertionAuthenticatorFlags up uv &&& 0x01 ≠ 0 ↔ up = true := by
  cases up <;> cases uv <;> decide

theorem flags_clear (up uv : Bool) :
    assertionAuthenticatorFlags up uv &&& 0x05 = 0 ↔ up = false ∧ uv = false := by
  cases up <;> cases uv <;> decide

theorem mem_approvals {user : UserContext} {i : Interaction} (h : i ∈ approvals parameters user) :
    i.user = user ∧ i.request.relyingPartyId = parameters.rpId ∧ i.result = .ok .approved := by
  unfold approvals at h
  split at h
  · rw [List.mem_singleton.mp h]
    exact ⟨rfl, rfl, rfl⟩
  · rw [List.mem_singleton.mp h]
    exact ⟨rfl, rfl, rfl⟩
  · cases h

/-- An interaction takes place unless neither presence nor verification is asked for. -/
theorem exists_mem_approvals (user : UserContext)
    (h : parameters.up = true ∨ parameters.uv = true) : ∃ i, i ∈ approvals parameters user ∧
      (parameters.uv = true → i.kind = .verification) := by
  unfold approvals assertionInteraction
  by_cases hUv : parameters.uv = true
  · rw [if_pos hUv]
    exact ⟨_, List.mem_cons_self, fun _ => rfl⟩
  · rw [if_neg hUv, if_pos (h.resolve_right hUv)]
    exact ⟨_, List.mem_cons_self, fun h => absurd h hUv⟩

theorem authentic_opening {o : Opening} (h : o.Valid L) : Authentic L o.reply o.user
      (assertionAuthenticatorFlags o.request.userPresent o.request.userVerified) := by
  have hRp : requestedRp L o.reply.request = some o.parameters.rpId := by
    rw [requestedRp, if_neg (by rw [h.command]; decide), h.parsed]
    rfl
  refine ⟨h.context, ?_, ?_, ?_, ?_⟩
  · intro hFlag
    have hUv : o.parameters.uv = true := (flags_verified _ _).mp hFlag
    obtain ⟨i, hi, hKind⟩ := exists_mem_approvals o.user (.inr hUv)
    obtain ⟨hUser, hId, hResult⟩ := mem_approvals hi
    exact ⟨i, h.approved ▸ hi, hKind hUv, hUser, by rw [hRp, hId], hResult⟩
  · intro hFlag
    have hUp : o.parameters.up = true := (flags_present _ _).mp hFlag
    obtain ⟨i, hi, _⟩ := exists_mem_approvals o.user (.inl hUp)
    exact ⟨i, h.approved ▸ hi, (mem_approvals hi).2.2⟩
  · intro hClear
    exact ⟨h.command, o.parameters, h.parsed, (flags_clear _ _).mp hClear⟩
  · intro i hi
    rw [h.approved] at hi
    exact (mem_approvals hi).2.2

theorem Chain.getNext {o : Opening} {since : List Event} {pending : List StoredCredential}
    {lastUse : Int} (h : Chain L o since pending lastUse) :
    ∀ e ∈ since, ∃ q : Reply, e = .replied q ∧ q.request.command = 0x08 := by
  induction h with
  | begun _ => exact fun e he => absurd he List.not_mem_nil
  | continued _ hr ih =>
    refine List.forall_mem_append.mpr ⟨ih, List.forall_mem_singleton.mpr ?_⟩
    exact ⟨_, rfl, hr.command⟩
  | elsewhere _ hr ih =>
    refine List.forall_mem_append.mpr ⟨ih, List.forall_mem_singleton.mpr ?_⟩
    exact ⟨_, rfl, hr.command⟩

theorem Asserts.flags {request : CTAPGetAssertionRequest} (hL : L.Lawful)
    (h : Asserts L request credential ceremony payload) :
    ∃ authData, authDataOf payload = some authData ∧ flagsOf authData =
      some (assertionAuthenticatorFlags request.userPresent request.userVerified) :=
  ⟨_, h.authData, flagsOf_authData hL _ _⟩

theorem status_of_authData {authData : Bytes} (h : authDataOf payload = some authData) :
    payload.head? = some 0x00 := by
  unfold authDataOf responseParameters at h
  split at h
  · rename_i hParameters
    split at hParameters
    · rfl
    · cases hParameters
  · cases h

theorem Asserts.status {request : CTAPGetAssertionRequest}
    (h : Asserts L request credential ceremony payload) :
    payload.head? = some 0x00 := status_of_authData h.authData

theorem not_succeeded_of_error {error : CTAPError}
    (h : r.packet = makeCborError r.request.cid error.code) : r.succeeded = false := by
  rw [Reply.succeeded, h]
  cases error <;> rfl

end Flags

/-- **Consent flags are authentic.** In every run, with any store, user interaction and stop
requests, the flags of a successful reply to a MakeCredential, GetAssertion or
GetNextAssertion are those of the ceremony behind it: verification and presence were
approved for its user and relying party, and nothing else was answered. -/
theorem consent_flags {L : Libraries} (hL : L.Lawful) (w : World)
    {c : Service.Config Daemon Input Exn AuthenticatorCall (Option CTAPPacket) (List Event)}
    (hRun : Service.Steps (authenticator L) Service.nobody (fun _ _ => True)
      ⟨.down, { world := w }, []⟩ c)
    {past rest : List Event} {r : Reply} (hLog : c.ghost = past ++ .replied r :: rest)
    (hCommand : r.request.command = 0x01 ∨ r.request.command = 0x02 ∨ r.request.command = 0x08)
    (hSucceeded : r.succeeded = true) :
    ∃ o authData flags user user', Behind past r o ∧ authDataOf r.packet.payload = some authData ∧
      flagsOf authData = some flags ∧ Authentic L o user flags ∧
      r.ceremony.user = some user' ∧ user'.binding = user.binding ∧
      ∀ i ∈ r.ceremony.interactions, i.result = .ok .approved := by
  have hOther (h : r.request.command = 0x04) : False := by
    rw [h] at hCommand
    exact absurd hCommand (by decide)
  cases allExplained_of_steps hRun past r rest hLog with
  | refused hPacket =>
    rw [not_succeeded_of_error hPacket] at hSucceeded
    cases hSucceeded
  | info hInfo => exact (hOther hInfo).elim
  | registered hMake hParsed hContext hApproved hAttests =>
    obtain ⟨authData, hAuthData, hFlags⟩ := hAttests.flags hL
    have hAuthentic := authentic_registration hMake hParsed hContext hApproved
    refine ⟨r, authData, _, _, _, .itself ?_, hAuthData, hFlags, hAuthentic, hContext, rfl,
      hAuthentic.approved⟩
    rw [hMake]
    decide
  | asserted hReply hValid =>
    subst hReply
    obtain ⟨authData, hAuthData, hFlags⟩ := hValid.asserts.flags hL
    have hAuthentic := authentic_opening hValid
    refine ⟨_, authData, _, _, _, .itself ?_, hAuthData, hFlags, hAuthentic, hValid.context, rfl,
      hAuthentic.approved⟩
    rw [hValid.command]
    decide
  | continued hPast hValid _ hChain hContinues =>
    obtain ⟨authData, hAuthData, hFlags⟩ := hContinues.asserts.flags hL
    obtain ⟨user', hContext, hBinding⟩ := hContinues.context
    refine ⟨_, authData, _, _, user', .opening hContinues.command hPast hValid.command ?_
      hContinues.cid.symm hChain.getNext, hAuthData, hFlags, authentic_opening hValid, hContext,
      hBinding, ?_⟩
    · rw [Reply.succeeded, hValid.asserts.status]
      rfl
    · rw [hContinues.silent]
      exact fun i hi => absurd hi List.not_mem_nil

def Event.isContinuation : Event → Bool
  | .replied r => r.request.command == 0x08 && r.succeeded
  | _ => false

/-- The continuation of the sample session carries the verification of its GetAssertion. -/
theorem consent_flags_sampleSession : ∃ c past r rest o authData flags user user',
    Service.Steps (authenticator sampleLibraries) Service.nobody (fun _ _ => True)
      ⟨.down, {}, []⟩ c ∧
    c.ghost = past ++ .replied r :: rest ∧ r.request.command = 0x08 ∧ r.succeeded = true ∧
    Behind past r o ∧ authDataOf r.packet.payload = some authData ∧
    flagsOf authData = some flags ∧ Authentic sampleLibraries o user flags ∧
    r.ceremony.user = some user' ∧ user'.binding = user.binding ∧
    ∀ i ∈ r.ceremony.interactions, i.result = .ok .approved := by
  have hEnds : (Service.exec (authenticator sampleLibraries) (fun _ _ => true) sampleSession
      ⟨.down, {}, []⟩).any (fun c => c.ghost.getLast?.any Event.isContinuation) = true := by
    decide +kernel
  obtain ⟨c, hExec, hEnd⟩ := (Option.any_eq_true _ _).mp hEnds
  obtain ⟨e, hLast, hContinuation⟩ := (Option.any_eq_true _ _).mp hEnd
  obtain ⟨past, hLog⟩ := List.getLast?_eq_some_iff.mp hLast
  have hRun : Service.Steps (authenticator sampleLibraries) Service.nobody (fun _ _ => True)
      ⟨.down, {}, []⟩ c :=
    Service.steps_exec_nobody _ _ (fun _ _ _ => trivial) (by decide +kernel) hExec
  cases e with
  | replied r =>
    simp only [Event.isContinuation, Bool.and_eq_true, beq_iff_eq] at hContinuation
    obtain ⟨hCommand, hSucceeded⟩ := hContinuation
    obtain ⟨o, authData, flags, user, user', hConsent⟩ := consent_flags sampleLibraries_lawful {}
      hRun hLog (.inr (.inr hCommand)) hSucceeded
    exact ⟨c, past, r, [], o, authData, flags, user, user', hRun, hLog, hCommand, hSucceeded,
      hConsent⟩
  | _ => cases hContinuation

end VAuth.Ctap
