import VAuth.Ctap.Ceremony

/-!
# What `execute_ctap_request` does

`Handled` has one constructor for each way in which a command returns, with the packet it
returns and the state it leaves; `wp_executeCtapRequest` proves that there is no other.
Whatever the outcome, the request object of the handler is cleared unless an assertion was
returned or the command was a GetNextAssertion of another channel.
-/

namespace VAuth.Ctap

open Proc Store

/-- The packet of a payload that is not an error. -/
def successPacket (cid : UInt32) (payload : Bytes) : CTAPPacket :=
  { cid, cmd := cborCommand, len := UInt16.ofNat payload.length, payload }

/-- A GetNextAssertion that does not come from the channel of the sequence. -/
def Foreign (request : CborRequest) (d : Daemon) : Prop :=
  d.getAssertion.sequence.originCid = 0 ∨ d.getAssertion.sequence.originCid ≠ request.cid

/-- What a command that returns has done. -/
inductive Handled (L : Libraries) (C : Setting Daemon Input)
    (Ran Failed : Operation → World → World → Prop) (request : CborRequest) (d : Daemon) :
    CTAPPacket → Daemon → Prop
  | refused {error : CTAPError} {d' : Daemon} (hDropped : Dropped C Failed d d') :
      Handled L C Ran Failed request d (makeCborError request.cid error.code) d'
  | foreign (hCommand : request.command = 0x08) (hForeign : Foreign request d) :
      Handled L C Ran Failed request d (makeCborError request.cid CTAPError.notAllowed.code) d
  | info {payload : Bytes} (hCommand : request.command = 0x04)
      (hPayload : buildGetinfoResponse = .ok payload) :
      Handled L C Ran Failed request d (successPacket request.cid payload)
        { d with getAssertion := {} }
  | registered {makeCredential : CTAPMakeCredentialRequest} {user : UserContext} {credId : Bytes}
      {key : CredentialKey} {payload : Bytes} {d' : Daemon} (hCommand : request.command = 0x01)
      (hParsed : CTAPMakeCredentialRequest.parseRequest L.walk request.parameters =
        some makeCredential)
      (h : Registered L C Ran makeCredential user credId key d d' payload) :
      Handled L C Ran Failed request d (successPacket request.cid payload) d'
  | asserted {getAssertion : AssertionParameters} {user : UserContext}
      {credential : StoredCredential} {remaining : List StoredCredential} {payload : Bytes}
      {d' : Daemon} (hCommand : request.command = 0x02)
      (hParsed : CTAPGetAssertionRequest.parseRequest L.walk request.parameters =
        some { getAssertion with })
      (h : Asserted L Ran getAssertion request.cid user credential remaining d d' payload) :
      Handled L C Ran Failed request d (successPacket request.cid payload) d'
  | continued {user : UserContext} {credential : StoredCredential} {payload : Bytes} {d' : Daemon}
      (hCommand : request.command = 0x08) (hOrigin : ¬ Foreign request d)
      (h : Continued L Ran request.cid user credential d d' payload) :
      Handled L C Ran Failed request d (successPacket request.cid payload) d'

section Commands

variable {L : Libraries} {C : Setting Daemon Input} {Ran Failed : Operation → World → World → Prop}
  {request : CborRequest} {d d' : Daemon} {E : Exn → Daemon → Prop}

theorem wp_reset {I : Daemon → Prop} {α : Type} {Q : α → Daemon → Prop} {next : HandlerProc α}
    (hC : C.Keeps I) (hI : I { d' with getAssertion := {} })
    (hNext : wp C Q E next { d' with getAssertion := {} }) :
    wp C Q E (do
      reset
      next) d' := by
  rw [bind_eq, wp_bind]
  exact wp_keeps_modify hC hI hNext

theorem Spoiled.cleared (h : Spoiled C Failed d d') :
    Dropped C Failed d { d' with getAssertion := {} } := ⟨h, rfl⟩

theorem Dropped.settled (h : Dropped C Failed d d') : Settled C Ran Failed d d' := h.1.settled

variable {payload : Bytes}

/-- A payload that came out of an encoder is not taken for an error. -/
theorem replyWith_eq {cleanup : HandlerProc Unit} {cid : UInt32}
    (h : 1 < payload.length ∧ payload.length ≤ ctaphidMaxPayloadSize) :
    replyWith cleanup cid payload = pure (successPacket cid payload) := by
  match payload with
  | [] => simp at h
  | [_] => simp at h
  | a :: b :: rest =>
    exact if_neg (Nat.not_lt.mpr h.2)

/-- The `catch` clauses of a ceremony that clears the request object when it fails. -/
theorem wp_guarded_reset {Done : Bytes → Daemon → Prop} {build : HandlerProc Bytes}
    (hC : C.Keeps (Settled C Ran Failed d))
    (hBuild : wp C (fun payload d'' => (∃ e, payload = failure e ∧ Quiet d d'') ∨ Done payload d'')
      (fun _ d'' => Spoiled C Failed d d'') build d') :
    wp C (fun payload d'' => (∃ e, payload = failure e ∧ Spoiled C Failed d d'') ∨ Done payload d'')
      (fun _ d'' => Dropped C Failed d d'') (guarded reset build) d' := by
  unfold guarded
  rw [tryCatch_eq, wp_tryCatch]
  refine wp_mono hBuild ?_ ?_
  · rintro payload d'' (⟨e, rfl, hQuiet⟩ | hDone)
    · exact .inl ⟨e, rfl, hQuiet.spoiled⟩
    · exact .inr hDone
  · intro e d'' hSpoiled
    apply wp_reset hC hSpoiled.cleared.settled
    cases errorReply e with
    | some error => exact .inl ⟨error, rfl, hSpoiled.cleared.1⟩
    | none => exact hSpoiled.cleared

theorem wp_replyWith_reset {cid : UInt32} {Done : Prop} {Q : CTAPPacket → Daemon → Prop}
    (hC : C.Keeps (Settled C Ran Failed d))
    (h : (∃ e, payload = failure e ∧ Spoiled C Failed d d') ∨ Done)
    (hLength : Done → 1 < payload.length ∧ payload.length ≤ ctaphidMaxPayloadSize)
    (hRefused : ∀ error : CTAPError, ∀ d'', Dropped C Failed d d'' →
      Q (makeCborError cid error.code) d'') (hDone : Done → Q (successPacket cid payload) d') :
    wp C Q E (replyWith reset cid payload) d' := by
  rcases h with ⟨e, rfl, hSpoiled⟩ | h
  · apply wp_reset hC hSpoiled.cleared.settled
    exact hRefused _ _ hSpoiled.cleared
  · rw [replyWith_eq (hLength h)]
    exact hDone h

theorem wp_handleGetInfo (hCommand : request.command = 0x04) :
    wp C (Handled L C Ran Failed request d) (fun _ d'' => Dropped C Failed d d'')
      (handleGetInfo request) { d with getAssertion := {} } := by
  have hDropped : Dropped C Failed d { d with getAssertion := {} } :=
    (Quiet.refl d).spoiled.cleared
  unfold handleGetInfo
  by_cases hParameters : request.parameters = []
  · rw [if_neg (not_not.mpr hParameters)]
    refine wp_bind.mpr (wp_tryCatch.mpr (wp_ofExcept.mpr ⟨fun payload hPayload => ?_, fun e _ => ?_⟩))
    · rw [replyWith_eq (encodeCbor_length hPayload)]
      exact .info hCommand hPayload
    · cases e with
      | cborEncodingError failure => exact .refused hDropped
      | _ => exact hDropped
  · rw [if_pos hParameters]
    exact .refused hDropped

theorem wp_handleMakeCredential (hC : C.Keeps (Quiet d)) (hRuns : StoreRuns L C Ran Failed d)
    (hCeremony : d.ceremony = {}) (hCommand : request.command = 0x01) :
    wp C (Handled L C Ran Failed request d) (fun _ d'' => Dropped C Failed d d'')
      (handleMakeCredential L request) { d with getAssertion := {} } := by
  unfold handleMakeCredential
  cases hParsed : CTAPMakeCredentialRequest.parseRequest L.walk request.parameters with
  | none => exact .refused (Quiet.refl d).spoiled.cleared
  | some makeCredential =>
    refine wp_bind.mpr (wp_tryCatch.mpr (wp_mono
      (wp_registrationBuildResponse hC hRuns hCeremony) ?_ ?_))
    · rintro payload d' (⟨e, rfl, hAfter⟩ | ⟨user, credId, key, h⟩)
      · exact .refused hAfter.dropped
      · rw [replyWith_eq h.attests.length]
        exact .registered hCommand hParsed h
    · intro e d' hDropped
      simp only [bind_eq, pure_eq, done_bind]
      cases errorReply e with
      | some error => exact .refused hDropped
      | none => exact hDropped

theorem parseRequest_some {walk : Walk} {getAssertion : CTAPGetAssertionRequest}
    (h : CTAPGetAssertionRequest.parseRequest walk payload = some getAssertion) :
    ∃ parameters : AssertionParameters, getAssertion = { parameters with } := by
  obtain ⟨parameters, _, rfl⟩ := Option.map_eq_some_iff.mp h
  exact ⟨parameters, rfl⟩

variable (hC : C.Keeps (Settled C Ran Failed d)) (hRuns : StoreRuns L C Ran Failed d)
  (hCeremony : d.ceremony = {})
include hC hRuns hCeremony

theorem wp_handleGetAssertion (hCommand : request.command = 0x02) :
    wp C (Handled L C Ran Failed request d) (fun _ d'' => Dropped C Failed d d'')
      (handleGetAssertion L request) d := by
  have hSame (getAssertion) : Settled C Ran Failed d { d with getAssertion } :=
    (Quiet.refl d).spoiled.settled
  unfold handleGetAssertion
  apply wp_reset hC (hSame _)
  cases hParsed : CTAPGetAssertionRequest.parseRequest L.walk request.parameters with
  | none =>
    refine wp_reset hC (hSame _) ?_
    exact .refused (Quiet.refl d).spoiled.cleared
  | some getAssertion =>
    obtain ⟨parameters, rfl⟩ := parseRequest_some hParsed
    refine wp_bind.mpr (wp_keeps_modify hC (hSame _) ?_)
    refine wp_seq (wp_guarded_reset hC
      (wp_assertionBuildResponse hC hRuns hCeremony)) ?_ fun _ _ h => h
    intro payload d' h
    apply wp_replyWith_reset hC h
    · rintro ⟨user, credential, remaining, hAsserted⟩
      exact hAsserted.asserts.length
    · intro error d'' hDropped
      exact .refused hDropped
    · rintro ⟨user, credential, remaining, hAsserted⟩
      exact .asserted hCommand hParsed hAsserted

theorem wp_handleGetNextAssertion (hCommand : request.command = 0x08) :
    wp C (Handled L C Ran Failed request d) (fun _ d'' => Dropped C Failed d d'')
      (handleGetNextAssertion L request) d := by
  unfold handleGetNextAssertion
  refine wp_bind.mpr (wp_keeps_read hC (Quiet.refl d).spoiled.settled ?_)
  by_cases hForeign : d.getAssertion.sequence.originCid = 0 ∨
      d.getAssertion.sequence.originCid ≠ request.cid
  · rw [if_pos hForeign]
    exact .foreign hCommand hForeign
  · rw [if_neg hForeign]
    by_cases hParameters : request.parameters = []
    · rw [if_neg (not_not.mpr hParameters)]
      refine wp_seq (wp_guarded_reset hC
        (wp_assertionBuildResponseNext (keeps_quiet hC) hRuns hCeremony)) ?_ fun _ _ h => h
      intro payload d' h
      apply wp_replyWith_reset hC h
      · rintro ⟨user, credential, hContinued⟩
        exact hContinued.asserts.length
      · intro error d'' hDropped
        exact .refused hDropped
      · rintro ⟨user, credential, hContinued⟩
        exact .continued hCommand hForeign hContinued
    · rw [if_pos hParameters]
      apply wp_reset hC (Quiet.refl d).spoiled.cleared.settled
      exact .refused (Quiet.refl d).spoiled.cleared

theorem wp_handle :
    wp C (Handled L C Ran Failed request d) (fun _ d'' => Dropped C Failed d d'')
      (handle L request) d := by
  have hCleared : Settled C Ran Failed d { d with getAssertion := {} } :=
    (Quiet.refl d).spoiled.settled
  unfold handle
  by_cases hKeeps : request.command ≠ 0x02 ∧ request.command ≠ 0x08
  · rw [if_pos hKeeps]
    refine wp_reset hC hCleared ?_
    by_cases hInfo : request.command = 0x04
    · rw [if_pos hInfo]
      exact wp_handleGetInfo hInfo
    · rw [if_neg hInfo]
      by_cases hMake : request.command = 0x01
      · rw [if_pos hMake]
        exact wp_handleMakeCredential (keeps_quiet hC) hRuns hCeremony hMake
      · rw [if_neg hMake, if_neg hKeeps.1, if_neg hKeeps.2]
        exact .refused (Quiet.refl d).spoiled.cleared
  · rw [if_neg hKeeps]
    by_cases hGet : request.command = 0x02
    · simp only [hGet]
      exact wp_handleGetAssertion hC hRuns hCeremony hGet
    · have hNext : request.command = 0x08 := by
        by_contra hNext
        exact hKeeps ⟨hGet, hNext⟩
      simp only [hNext]
      exact wp_handleGetNextAssertion hC hRuns hCeremony hNext

/-- **Commands.** A command that returns has done what one constructor of `Handled` says; one
that throws has left the request object cleared and the store as it was or as a failed
operation left it. -/
theorem wp_executeCtapRequest :
    wp C (Handled L C Ran Failed request d) (fun _ d'' => Dropped C Failed d d'')
      (executeCtapRequest L request) d := by
  unfold executeCtapRequest
  have hThrown (e : Exn) {d' : Daemon} (hSpoiled : Spoiled C Failed d d') :
      wp C (Handled L C Ran Failed request d) (fun _ d'' => Dropped C Failed d d'') (do
          reset
          throw e : HandlerProc CTAPPacket) d' :=
    wp_reset hC hSpoiled.cleared.settled hSpoiled.cleared
  rw [tryCatch_eq, wp_tryCatch, bind_eq, wp_bind]
  apply wp_cancellationPoint (keeps_quiet hC) (.refl d)
  · exact hThrown _ (Quiet.refl d).spoiled
  · exact wp_mono (wp_handle hC hRuns hCeremony) (fun _ _ h => h) fun e _ h => hThrown e h.1

end Commands

end VAuth.Ctap
