import VAuth.Ctap.Command

/-!
# Runs of the authenticator

The daemon without its transport: a process image loads the store, then takes CTAP commands
one after another, on any channels, and may crash inside any of them. The log lists what
the handler did, in order: the commands that returned a packet, with the record of their
ceremony and the store at that time, those that threw, and the times the event loop cleared
the handler.
-/

namespace VAuth.Ctap

open Proc Store

/-- A command that returned. -/
structure Reply where
  request : CborRequest
  packet : CTAPPacket
  ceremony : Ceremony
  world : World

inductive Event where
  | loaded
  | replied (reply : Reply)
  | threw (request : CborRequest)
  | cleared

/-- The daemon when a command begins. -/
def Daemon.newRecord (d : Daemon) : Daemon := { d with ceremony := {} }

/-- A command, with a record of its own. -/
def serve (L : Libraries) (request : CborRequest) : HandlerProc CTAPPacket := do
  Proc.modify Daemon.newRecord
  executeCtapRequest L request

inductive AuthenticatorCall where
  | load
  | command (request : CborRequest)
  | reset

def AuthenticatorCall.run (L : Libraries) : AuthenticatorCall → HandlerProc (Option CTAPPacket)
  | load => do
      withStore (Store.load L.toPlatform)
      return none
  | command request => do
      let packet ← serve L request
      return some packet
  | reset => do
      Ctap.reset
      return none

/-- What is noted down when a call returns. -/
def AuthenticatorCall.events : AuthenticatorCall → Option CTAPPacket → Daemon → List Event
  | load, _, _ => [.loaded]
  | command request, some packet, d => [.replied ⟨request, packet, d.ceremony, d.world⟩]
  | command _, none, _ => []
  | reset, _, _ => [.cleared]

/-- What is noted down when a call throws. -/
def AuthenticatorCall.failures : AuthenticatorCall → List Event
  | command request => [.threw request]
  | _ => []

/-- The store is loaded once for each process image; a restart keeps the disk. -/
def authenticator (L : Libraries) :
    Service Daemon Input Exn AuthenticatorCall (Option CTAPPacket) (List Event) where
  boot := .load
  call := AuthenticatorCall.run L
  accepts := fun
    | .load => false
    | _ => true
  restart := fun d => { world := { d.world with store := {} }, drawn := d.drawn }
  returned := fun k r d log => log ++ k.events r d
  failed := fun k _ _ log => log ++ k.failures
  crashed := fun _ _ log => log

/-- No process, no store file, and the counter at zero. -/
def blank : Service.Config Daemon Input Exn AuthenticatorCall (Option CTAPPacket) (List Event) :=
  ⟨.down, {}, []⟩

/-! ## Commands -/

section Serve

variable {L : Libraries} {C : Setting Daemon Input} {Ran Failed : Operation → World → World → Prop}
  {request : CborRequest} {d : Daemon}

theorem wp_serve (hC : C.Keeps (Settled C Ran Failed d.newRecord))
    (hRuns : StoreRuns L C Ran Failed d.newRecord) :
    wp C (Handled L C Ran Failed request d.newRecord)
      (fun _ d'' => Dropped C Failed d.newRecord d'') (serve L request) d :=
  wp_bind.mpr (wp_keeps_modify hC (Quiet.refl _).spoiled.settled
    (wp_executeCtapRequest hC hRuns rfl))

theorem wp_withStore_alone {α : Type} {p : StoreProc α} {Q : α → World → Prop}
    {E : Exn → World → Prop} {I : World → Prop} {J : Daemon → Prop}
    {admits : Daemon → Input → Prop} (hJ : ∀ w, I w → J { d with world := w })
    (h : wp (.among Service.nobody (fun _ _ => True) fun _ w => I w) Q E p d.world) :
    wp (.among Service.nobody admits fun _ d' => J d')
      (fun a d' => ∃ w, Q a w ∧ d' = { d with world := w })
      (fun e d' => ∃ w, E e w ∧ d' = { d with world := w }) (withStore p) d := by
  refine wp_mono (wp_zoom (t := d) (fun _ => rfl) (fun _ _ => rfl)
    (fun _ _ hRely => Service.eq_of_nobody hRely) (fun _ => Relation.ReflTransGen.refl)
    (fun _ _ _ => trivial) (fun _ w => hJ w) id h) ?_ ?_
  · exact fun _ _ hQ => hQ
  · exact fun _ _ hE => hE

end Serve

/-! ## Commands on inputs of one kind -/

section Alone

variable {admits : Input → Prop} {d : Daemon} {E : Exn → Daemon → Prop}

theorem wp_alone_cancellationPoint {Q : Unit → Daemon → Prop}
    (hStop : ∀ i, admits i → i.stop = false) (hQ : Q () d) :
    wp (.alone admits fun _ => True) Q E cancellationPoint d := by
  refine wp_keeps_observe keeps_alone trivial fun i hi => ?_
  rw [hStop i hi]
  exact ⟨fun _ _ => hQ, nofun⟩

theorem wp_alone_currentContext {Q : UserContext → Daemon → Prop}
    (hContext : ∀ i, admits i → ∃ user, i.context = .ok user ∧
      Q user { d with ceremony.user := some user }) :
    wp (.alone admits fun _ => True) Q E currentContext d := by
  refine wp_keeps_atomically keeps_alone fun i hi => ?_
  obtain ⟨user, hUser, hQ⟩ := hContext i hi
  rw [hUser]
  refine ⟨trivial, fun _ hCurrent => ?_, nofun⟩
  cases hCurrent
  exact hQ

theorem wp_alone_withStore {α : Type} {p : StoreProc α} {Q : α → Daemon → Prop}
    {R : α → World → Prop} {F : Exn → World → Prop}
    (hStorage : ∀ i, admits i → i.storage.Succeeds)
    (h : wp (.alone Answer.Succeeds fun _ => True) R F p d.world)
    (hQ : ∀ a w, R a w → Q a { d with world := w })
    (hE : ∀ e w, F e w → E e { d with world := w }) :
    wp (.alone admits fun _ => True) Q E (withStore p) d := by
  refine wp_mono (wp_zoom (C := .alone Answer.Succeeds fun _ => True)
    (D := .alone admits fun _ => True) (t := d) (fun _ => rfl) (fun _ _ => rfl)
    (fun _ _ hRely => Eq.symm hRely) (fun _ => rfl) (fun _ => hStorage)
    (fun _ _ _ => trivial) id h) ?_ ?_
  · rintro a _ ⟨w, hR, rfl⟩
    exact hQ a w hR
  · rintro e _ ⟨w, hF, rfl⟩
    exact hE e w hF

theorem hasForRp_ready {store : CredentialStore} (hReady : store.requiresReload = false)
    (credId rpId : Bytes) (ownerUid : UInt32) :
    store.hasForRp credId rpId ownerUid = .ok (store.entryFor credId rpId ownerUid).isSome := by
  unfold CredentialStore.hasForRp
  rw [requireReady_eq hReady]
  rfl

/-- The exclude list names a credential that the store holds for the user and the relying party. -/
def excluded (makeCredential : CTAPMakeCredentialRequest) (user : UserContext)
    (store : CredentialStore) : Bool :=
  makeCredential.excludeList.any fun descriptor => descriptor.type == text "public-key" &&
    (store.entryFor descriptor.id makeCredential.rp.id user.uid).isSome

theorem wp_alone_findExcluded {rpId : Bytes} {ownerUid : UInt32}
    (hReady : d.world.store.requiresReload = false)
    (excludeList : List PublicKeyCredentialDescriptor) :
    wp (.alone admits fun _ => True) (fun found d' => (found = excludeList.any fun descriptor =>
        descriptor.type == text "public-key" &&
          (d.world.store.entryFor descriptor.id rpId ownerUid).isSome) ∧ d' = d) E
      (CTAPMakeCredentialRequest.findExcluded rpId ownerUid excludeList) d := by
  induction excludeList with
  | nil => exact ⟨rfl, rfl⟩
  | cons descriptor rest ih =>
    unfold CTAPMakeCredentialRequest.findExcluded
    rw [List.any_cons]
    by_cases hType : descriptor.type = text "public-key"
    · rw [if_pos hType, beq_iff_eq.mpr hType, Bool.true_and]
      have hFinds := hasForRp_ready hReady descriptor.id rpId ownerUid
      refine wp_bind.mpr (wp_keeps_observe keeps_alone trivial fun _ _ =>
        ⟨fun found hFound => ?_, fun e he => by cases hFinds.symm.trans he⟩)
      cases hFinds.symm.trans hFound
      cases (d.world.store.entryFor descriptor.id rpId ownerUid).isSome with
      | true => exact ⟨rfl, rfl⟩
      | false => exact ih
    · rw [if_neg hType, beq_eq_false_iff_ne.mpr hType]
      exact ih

end Alone

/-! ## Reading replies -/

/-- The status byte of a reply. -/
def Reply.succeeded (reply : Reply) : Bool := reply.packet.payload.head? == some 0x00

def signCountOf (authData : Bytes) : UInt32 :=
  UInt32.ofNat (Cbor.ofBigEndian ((authData.drop 33).take 4))

/-- The flags of the authenticator data. -/
def flagsOf (authData : Bytes) : Option UInt8 := authData[32]?

theorem signCountBytes_eq (count : UInt32) : signCountBytes count = Cbor.bigEndian 4 count.toNat := by
  simp only [signCountBytes, Cbor.bigEndian, List.nil_append, List.cons_append]
  -- The four bytes one after another.
  refine congrArg₂ _ ?_ (congrArg₂ _ ?_ (congrArg₂ _ ?_ (congrArg₂ _ ?_ rfl)))
  all_goals
    apply UInt8.toNat_inj.mp
    simp [UInt32.toNat_shiftRight, Nat.shiftRight_eq_div_pow]
    try omega

theorem signCountOf_authData {L : Libraries} (hL : L.Lawful) (request : CTAPGetAssertionRequest)
    (count : UInt32) : signCountOf (request.authData L count) = count := by
  have hDrop : (request.authData L count).drop 33 = signCountBytes count := by
    rw [CTAPGetAssertionRequest.authData, List.drop_append, hL.sha256_length]
    simp [List.drop_eq_nil_of_le, hL.sha256_length]
  rw [signCountOf, hDrop, List.take_of_length_le (by rw [signCountBytes_eq, Cbor.length_bigEndian]),
    signCountBytes_eq, Cbor.ofBigEndian_bigEndian count.toNat_lt, UInt32.ofNat_toNat]

theorem flagsOf_authData {L : Libraries} (hL : L.Lawful) (request : CTAPGetAssertionRequest)
    (count : UInt32) : flagsOf (request.authData L count) =
      some (assertionAuthenticatorFlags request.userPresent request.userVerified) := by
  rw [flagsOf, CTAPGetAssertionRequest.authData, List.getElem?_append_right (by rw [hL.sha256_length]),
    hL.sha256_length]
  rfl

/-! ## A concrete authenticator

The libraries, requests and inputs of concrete runs: two users of one relying party
register, and the second registration comes first among the matches of an assertion. -/

def sampleUser : UserContext where
  uid := 1000
  name := text "alice"
  session := some { sessionId := text "c1", interactionAgentId := text "agent", generation := 1 }

/-- The entry of the `n`-th registration after `count` assertions. -/
def sampleEntry (n : UInt8) (count : UInt32) : Bytes × StoredCredential :=
  (hexEncode (List.replicate 32 n), {
    id := List.replicate 32 n
    ownerUid := 1000
    rpId := text "example.org"
    userId := [n]
    userName := []
    userDisplayName := []
    alg := -7
    signCount := count
    privateBlob := [2]
    publicBlob := [1]
    discoverable := true
    creationOrder := n.toUInt64 })

def sampleStates : List (List (Bytes × StoredCredential)) :=
  [[], [sampleEntry 1 0], [sampleEntry 1 0, sampleEntry 2 0], [sampleEntry 1 0, sampleEntry 2 1],
    [sampleEntry 1 1, sampleEntry 2 1], [sampleEntry 1 1, sampleEntry 2 2]]

def sampleLibraries : Libraries where
  toPlatform := tablePlatform (sampleStates.map fun entries =>
    (storageDocument entries, (storageDocument entries).render))
  walk := Cbor.next
  sha256 := fun _ => List.replicate 32 0
  extractPublic := fun _ => .ok ([], [])

theorem sampleLibraries_lawful : sampleLibraries.Lawful where
  platform := tablePlatform_lawful (by decide +kernel)
  sha256_length := fun _ => List.length_replicate

/-- The registration of a discoverable credential of the `n`-th user. -/
def sampleMakeCredential (n : UInt8) : CborRequest where
  cid := 1
  command := 0x01
  parameters := Cbor.encode (.map [.uint 1, .bytes (List.replicate 32 0),
    .uint 2, .map [.text (text "id"), .text (text "example.org")],
    .uint 3, .map [.text (text "id"), .bytes [n]],
    .uint 4, .array [.map [.text (text "alg"), es256, .text (text "type"),
      .text (text "public-key")]],
    .uint 7, .map [.text (text "rk"), .bool true]])

/-- An assertion without an allow list and with user verification. -/
def sampleGetAssertion : CborRequest where
  cid := 1
  command := 0x02
  parameters := Cbor.encode (.map [.uint 1, .text (text "example.org"),
    .uint 2, .bytes (List.replicate 32 0), .uint 5, .map [.text (text "uv"), .bool true]])

def sampleGetNextAssertion : CborRequest where
  cid := 1
  command := 0x08
  parameters := []

/-- Everything succeeds and the user approves; no random bytes. -/
def approving : Input where
  stop := false
  storage := .success
  context := .ok sampleUser
  interaction := .ok .approved
  random := .error (.runtimeError "RAND_bytes failed")
  key := .ok { publicBlob := [1], privateBlob := [2] }
  signature := .ok [3]
  now := 0

/-- The same with the random bytes of the `n`-th registration. -/
def drawing (n : UInt8) : Input := { approving with random := .ok (Vector.replicate 32 n) }

/-- The inputs of a registration: the id is drawn in its ninth step. -/
def registering (n : UInt8) : List (Service.Action Daemon Input AuthenticatorCall) :=
  [.invoke (.command (sampleMakeCredential n))] ++ Service.feed 8 approving ++
    Service.feed 1 (drawing n) ++ Service.feed 26 approving ++ [.finish]

/-- A load, two registrations, an assertion with its continuation. -/
def sampleSession : List (Service.Action Daemon Input AuthenticatorCall) :=
  [.start] ++ Service.feed 3 approving ++ [.finish] ++ registering 1 ++ registering 2 ++
    [.invoke (.command sampleGetAssertion)] ++ Service.feed 37 approving ++
    [.finish, .invoke (.command sampleGetNextAssertion)] ++ Service.feed 29 approving ++ [.finish]

end VAuth.Ctap
