import VAuth.Ctap.Consent
import VAuth.Store.Memory
import VAuth.Store.Representation

/-!
# Replies and commits

A reply and the store agree: a successful registration or assertion is backed by one operation of
the store that returned, and a command that fails in any way leaves the map and the generation in
memory as they were. Since an operation that returns advances the generation, and one that throws
does not, the store after a command tells whether an operation of it has returned.
-/

namespace VAuth

open Proc

namespace Store

/-! ## Operations that return and operations that throw -/

/-- The operation, called in `w`, can return and leave `w'`. -/
def Operation.Returns (P : Platform) (op : Operation) (w w' : World) : Prop :=
  ∃ inputs, Proc.run inputs (op.run P) w = (done (), w')

/-- The operation, called in `w`, can throw and leave `w'`. -/
def Operation.Throws (P : Platform) (op : Operation) (w w' : World) : Prop :=
  ∃ inputs e, Proc.run inputs (op.run P) w = (fail e, w')

section Operations

variable {P : Platform} {op : Operation} {w w' : World}

theorem wp_memory_operation (op : Operation) (w : World) :
    wp (.among Service.nobody (fun _ _ => True) fun _ _ => True)
      (fun _ w' => ∃ m, op.change w.store = .ok m ∧ w'.memory = (m, w.store.generation + 1))
      (fun _ w' => w'.memory = w.memory) (op.run P) w := by
  rw [Operation.run_eq]
  refine wp_mono (wp_memory_commit (I := fun _ => True) Service.keeps_nobody trivial
    (fun _ => trivial) (fun _ _ _ => trivial)) ?_ fun _ _ h => h
  rintro _ w' ⟨m, hChange, -, hMemory⟩
  exact ⟨m, hChange, hMemory⟩

theorem Operation.Returns.memory (h : op.Returns P w w') :
    ∃ m, op.change w.store = .ok m ∧ w'.memory = (m, w.store.generation + 1) := by
  obtain ⟨inputs, hRun⟩ := h
  exact (Service.wp_run_nobody (wp_memory_operation op w) inputs).1 () w' hRun

theorem Operation.Throws.memory (h : op.Throws P w w') : w'.memory = w.memory := by
  obtain ⟨inputs, e, hRun⟩ := h
  exact (Service.wp_run_nobody (wp_memory_operation op w) inputs).2 e w' hRun

theorem Operation.Returns.advances (h : op.Returns P w w') : w'.memory ≠ w.memory := by
  obtain ⟨m, -, hMemory⟩ := h.memory
  rw [hMemory]
  intro hSame
  exact succ_ne_self _ (congrArg Prod.snd hSame)

end Operations

end Store

namespace Ctap

open Store

/-! ## What a command leaves behind -/

/-- The id in the attested credential data, which its length precedes. -/
def attestedIdOf (authData : Bytes) : Bytes :=
  (authData.drop 55).take (Cbor.ofBigEndian ((authData.drop 53).take 2))

/-- The operation behind a successful reply. -/
inductive Backed (L : Libraries) (request : CborRequest) (payload : Bytes) (w w' : World) : Prop
  | dummy {makeCredential : CTAPMakeCredentialRequest} (hCommand : request.command = 0x01)
      (hParsed : CTAPMakeCredentialRequest.parseRequest L.walk request.parameters =
        some makeCredential)
      (hDummy : makeCredential.isDummy = true) (hUnchanged : w' = w)
  | put {makeCredential : CTAPMakeCredentialRequest} {credential : StoredCredential}
      {ownerUid : UInt32} {authData : Bytes} (hCommand : request.command = 0x01)
      (hParsed : CTAPMakeCredentialRequest.parseRequest L.walk request.parameters =
        some makeCredential)
      (hKept : makeCredential.isDummy = false)
      (hReturned : (Operation.put credential ownerUid).Returns L.toPlatform w w')
      (hAdded : Replaces w.store credential ownerUid w'.store.stored)
      (hAuthData : authDataOf payload = some authData)
      (hId : attestedIdOf authData = credential.id)
  | increment {credId : Bytes} {ownerUid : UInt32}
      (hCommand : request.command = 0x02 ∨ request.command = 0x08)
      (hReturned : (Operation.incrementSigCount credId ownerUid).Returns L.toPlatform w w')
      (hId : credentialIdOf payload = some credId)

/-- A command that failed has left the map as it was, and no sequence of its own. -/
structure Undone (L : Libraries) (request : CborRequest) (d d' : Daemon) : Prop where
  stored : d'.world.store.stored = d.world.store.stored
  generation : d'.world.store.generation = d.world.store.generation
  store : d'.world = d.world ∨ ∃ op : Operation, op.Throws L.toPlatform d.world d'.world
  cleared : d'.getAssertion = {} ∨ request.command = 0x08 ∧ Foreign request d ∧ d' = d

section Commands

variable {L : Libraries} {request : CborRequest} {d d' : Daemon} {packet : CTAPPacket}

/-- An operation inside of a command does what it does alone. -/
theorem storeRuns_returns (L : Libraries) (d : Daemon) :
    StoreRuns L (.among Service.nobody (fun _ _ => True) fun _ _ => True)
      (fun op => op.Returns L.toPlatform) (fun op => op.Throws L.toPlatform) d := by
  intro op d' _ _
  refine wp_mono (wp_withStore_alone (I := fun _ => True) (fun _ _ => trivial)
    (Service.wp_ran (op.run L.toPlatform) d'.world)) ?_ ?_
  · rintro _ d'' ⟨w, hRun, rfl⟩
    exact ⟨w, hRun, rfl⟩
  · rintro e d'' ⟨w, ⟨inputs, hRun⟩, rfl⟩
    exact ⟨w, ⟨inputs, e, hRun⟩, rfl⟩

theorem Dropped.undone {C : Setting Daemon Input}
    (h : Dropped C (fun op => op.Throws L.toPlatform) d d') : Undone L request d d' := by
  obtain ⟨⟨-, hSame | ⟨op, -, hThrows⟩⟩, hCleared⟩ := h
  · exact ⟨by rw [hSame], by rw [hSame], .inl hSame, .inl hCleared⟩
  · have hMemory := hThrows.memory
    exact ⟨congrArg Prod.fst hMemory, congrArg Prod.snd hMemory, .inr ⟨op, hThrows⟩, .inl hCleared⟩

theorem Undone.not_returned (h : Undone L request d d') (op : Operation) :
    ¬ op.Returns L.toPlatform d.world d'.world :=
  fun hReturns => hReturns.advances (Prod.ext h.stored h.generation)

theorem attestedIdOf_register (hL : L.Lawful) (makeCredential : CTAPMakeCredentialRequest)
    {credId : Bytes} (hLength : credId.length = 32) (cose : Bytes) :
    attestedIdOf (makeCredential.authDataPrefix L credId ++ cose) = credId := by
  have hHead : (L.sha256 makeCredential.rp.id ++ makeCredential.flags :: signCountBytes 0 ++
      aaguid).length = 53 := by
    simp [hL.sha256_length, signCountBytes, aaguid]
  have hData : makeCredential.authDataPrefix L credId ++ cose =
      (L.sha256 makeCredential.rp.id ++ makeCredential.flags :: signCountBytes 0 ++ aaguid) ++
        ([0x00, 0x20] ++ (credId ++ cose)) := by
    have hPrefix : [(UInt16.ofNat 32 >>> 8).toUInt8, (UInt16.ofNat 32).toUInt8] =
        [0x00, 0x20] := rfl
    rw [CTAPMakeCredentialRequest.authDataPrefix, hLength, hPrefix]
    simp
  have hSize : ((makeCredential.authDataPrefix L credId ++ cose).drop 53).take 2 =
      [0x00, 0x20] := by
    rw [hData, List.drop_left' hHead]
    rfl
  have hRest : (makeCredential.authDataPrefix L credId ++ cose).drop 55 = credId ++ cose := by
    rw [hData, ← List.append_assoc]
    exact List.drop_left' (by rw [List.length_append, hHead]; rfl)
  rw [attestedIdOf, hSize, hRest]
  exact List.take_left' hLength

/-- The setting of a command that runs to its end. -/
abbrev commandSetting : Setting Daemon Input :=
  .among Service.nobody (fun _ _ => True) fun _ _ => True

abbrev Performed (L : Libraries) (request : CborRequest) (d : Daemon) :
    CTAPPacket → Daemon → Prop :=
  Handled L commandSetting (fun op => op.Returns L.toPlatform) (fun op => op.Throws L.toPlatform)
    request d

theorem Handled.backed (hL : L.Lawful) (h : Performed L request d packet d')
    (hCommand : request.command = 0x01 ∨ request.command = 0x02 ∨ request.command = 0x08)
    (hSucceeded : packet.payload.head? = some 0x00) :
    Backed L request packet.payload d.world d'.world := by
  have hError {error : CTAPError}
      (h : (makeCborError request.cid error.code).payload.head? = some 0x00) : False := by
    cases error <;> cases h
  cases h with
  | refused _ => exact (hError hSucceeded).elim
  | foreign _ _ => exact (hError hSucceeded).elim
  | info hInfo _ =>
    rw [hInfo] at hCommand
    exact absurd hCommand (by decide)
  | @registered makeCredential user credId key payload d' hMake hParsed h =>
    have hRan := h.ran
    by_cases hDummy : makeCredential.isDummy = true
    · rw [if_pos hDummy] at hRan
      exact .dummy hMake hParsed hDummy hRan
    · rw [if_neg hDummy] at hRan
      obtain ⟨m, hChange, hMemory⟩ := Operation.Returns.memory hRan
      obtain ⟨cose, hAuthData⟩ := h.attests.authData
      obtain ⟨_, _, x, -, -, -, hId⟩ := h.drew
      have hLength : credId.length = 32 := by rw [← hId, Vector.length_toList]
      refine .put hMake hParsed (Bool.eq_false_iff.mpr hDummy) hRan ?_ hAuthData
        (attestedIdOf_register hL makeCredential hLength cose)
      rw [show d'.world.store.stored = m from congrArg Prod.fst hMemory]
      exact afterPut_replaces hChange
  | asserted hGet _ h => exact .increment (.inl hGet) h.ran h.asserts.credentialId
  | continued hNext _ h => exact .increment (.inr hNext) h.ran h.asserts.credentialId

theorem Handled.undone (h : Performed L request d packet d')
    (hFailed : packet.payload.head? ≠ some 0x00) : Undone L request d d' := by
  cases h with
  | refused hDropped => exact hDropped.undone
  | foreign hCommand hForeign => exact ⟨rfl, rfl, .inl rfl, .inr ⟨hCommand, hForeign, rfl⟩⟩
  | info _ hPayload =>
    refine (hFailed ?_).elim
    rw [successPacket, (encodeCbor_ok hPayload).1]
    rfl
  | registered _ _ h =>
    obtain ⟨cose, hAuthData⟩ := h.attests.authData
    exact (hFailed (status_of_authData hAuthData)).elim
  | asserted _ _ h => exact (hFailed h.asserts.status).elim
  | continued _ _ h => exact (hFailed h.asserts.status).elim

theorem Handled.answered (h : Performed L request d packet d') {op : Operation}
    (hReturned : op.Returns L.toPlatform d.world d'.world) :
    packet.payload.head? = some 0x00 ∧
      (request.command = 0x01 ∨ request.command = 0x02 ∨ request.command = 0x08) := by
  have hSucceeded : packet.payload.head? = some 0x00 := by
    by_contra hFailed
    exact (h.undone hFailed).not_returned op hReturned
  refine ⟨hSucceeded, ?_⟩
  cases h with
  | refused hDropped =>
    have hUndone : Undone L request d d' := hDropped.undone
    exact (hUndone.not_returned op hReturned).elim
  | foreign hCommand _ => exact .inr (.inr hCommand)
  | info _ _ => exact (hReturned.advances rfl).elim
  | registered hCommand _ _ => exact .inl hCommand
  | asserted hCommand _ _ => exact .inr (.inl hCommand)
  | continued hCommand _ _ => exact .inr (.inr hCommand)

end Commands

/-- How the reply `packet` of a command agrees with what it did to the store. -/
structure Agreement (L : Libraries) (request : CborRequest) (d : Daemon) (packet : CTAPPacket)
    (d' : Daemon) : Prop where
  backed : packet.payload.head? = some 0x00 →
    request.command = 0x01 ∨ request.command = 0x02 ∨ request.command = 0x08 →
    Backed L request packet.payload d.world d'.world
  answered : ∀ op : Operation, op.Returns L.toPlatform d.world d'.world →
    packet.payload.head? = some 0x00 ∧
      (request.command = 0x01 ∨ request.command = 0x02 ∨ request.command = 0x08)
  undone : packet.payload.head? ≠ some 0x00 → Undone L request d d'

/-- **Replies agree with commits.** For every request, store, user interaction, key operation and
schedule of stop requests: a success is backed by an operation that returned, an operation that
returned is answered with a success, and an error or an exception undoes the command. -/
theorem replies_agree_with_commits {L : Libraries} (hL : L.Lawful) (request : CborRequest)
    (d : Daemon) (inputs : List Input) :
    (∀ packet d', Proc.run inputs (handle L request) d.newRecord = (done packet, d') →
      Agreement L request d.newRecord packet d') ∧
    ∀ e d', Proc.run inputs (handle L request) d.newRecord = (fail e, d') →
      Undone L request d.newRecord d' ∧
        ∀ op : Operation, ¬ op.Returns L.toPlatform d.world d'.world := by
  have hHandle : wp commandSetting (Performed L request d.newRecord)
      (fun _ d' => Dropped commandSetting (fun op => op.Throws L.toPlatform) d.newRecord d')
      (handle L request) d.newRecord :=
    wp_handle (Service.keeps_nobody.mono fun _ _ => trivial) (storeRuns_returns L d.newRecord) rfl
  obtain ⟨hDone, hFail⟩ := Service.wp_run_nobody hHandle inputs
  constructor
  · intro packet d' hRun
    have hHandled := hDone packet d' hRun
    exact ⟨fun hSucceeded hCommand => hHandled.backed hL hCommand hSucceeded,
      fun op hReturned => hHandled.answered hReturned, fun hFailed => hHandled.undone hFailed⟩
  · intro e d' hRun
    have hUndone : Undone L request d.newRecord d' := (hFail e d' hRun).undone
    exact ⟨hUndone, fun op hReturned => hUndone.not_returned op hReturned⟩

/-- The inputs of the first registration. -/
def registrationInputs : List Input :=
  List.replicate 6 approving ++ [drawing 1] ++ List.replicate 26 approving

theorem replies_agree_with_commits_registration : ∃ packet d',
    Proc.run registrationInputs (handle sampleLibraries (sampleMakeCredential 1)) {} =
      (done packet, d') ∧ packet.payload.head? = some 0x00 ∧
    Backed sampleLibraries (sampleMakeCredential 1) packet.payload {} d'.world := by
  have hEnds : (Proc.run registrationInputs (handle sampleLibraries (sampleMakeCredential 1))
      {}).1.outcome?.any (fun r => r.toOption.any fun packet =>
        packet.payload.head? == some 0x00) = true := by decide +kernel
  obtain ⟨packet, hRun, hStatus⟩ := run_done_of_any hEnds
  have hSucceeded : packet.payload.head? = some 0x00 := beq_iff_eq.mp hStatus
  refine ⟨packet, _, hRun, hSucceeded, ?_⟩
  exact ((replies_agree_with_commits sampleLibraries_lawful (sampleMakeCredential 1) {}
    registrationInputs).1 packet _ hRun).backed hSucceeded (.inl rfl)

end Ctap

end VAuth
