import VAuth.Ctap.Authenticator
import VAuth.Store.CrashConsistency

/-!
# Signature counters

The counters of the assertions a credential has returned increase, over all commands,
failures, crashes and restarts. The argument ties the counters that were emitted to every
map a later load can yield: the map in memory has caught up with them (`Agrees`), and so
has each map that an interrupted operation may have left in the file, since a credential
id is never drawn twice. A continuation signs from a snapshot; as long as its sequence
lives nothing else has changed those entries of the map (`Snapshot`).
-/

namespace VAuth.Ctap

open Proc Store

/-! ## Emitted counters -/

/-- The counter of an assertion that was returned, with the store at that time. -/
structure Emission where
  credentialId : Bytes
  count : UInt32
  world : World

/-- An assertion is a reply with a credential id and authenticator data. -/
def Reply.emission? (reply : Reply) : Option Emission := do
  let credentialId ← credentialIdOf reply.packet.payload
  let authData ← authDataOf reply.packet.payload
  return ⟨credentialId, signCountOf authData, reply.world⟩

def Event.emission? : Event → Option Emission
  | .replied reply => reply.emission?
  | _ => none

def emissions (log : List Event) : List Emission := log.filterMap Event.emission?

/-- The counter is the one in memory and the one in the committed file. -/
structure Emission.Stored (P : Platform) (e : Emission) : Prop where
  memory : ∃ c, e.world.store.stored[hexEncode e.credentialId]? = some c ∧ c.signCount = e.count
  file : ∃ file, e.world.disk.file = some file ∧
    Seals P file e.world.disk.counter e.world.store.stored

/-- A map that a run with these draws may have left, and that has caught up with what was
emitted. -/
structure Agrees (drawn : List Bytes) (emitted : List Emission) (m : Storage) : Prop where
  known : ∀ (k : Bytes) (c : StoredCredential), m[k]? = some c → c.id ∈ drawn
  covers : ∀ e ∈ emitted, ∀ c : StoredCredential, m[hexEncode e.credentialId]? = some c →
    e.count ≤ c.signCount

variable {emitted : List Emission}

theorem Agrees.mono {drawn drawn' : List Bytes} {m : Storage} (h : Agrees drawn emitted m)
    (hDrawn : drawn <+: drawn') : Agrees drawn' emitted m :=
  ⟨fun k c hc => hDrawn.subset (h.known k c hc), h.covers⟩

theorem lt_succ {n : UInt32} (h : n ≠ 4294967295) : n < n + 1 := by
  rw [UInt32.lt_iff_toNat_lt, UInt32.toNat_add]
  have hNat : n.toNat ≠ 4294967295 := fun hn => h (UInt32.toNat_inj.mp hn)
  have hBound := n.toNat_lt
  simp only [UInt32.reduceToNat]
  omega

section Operations

variable {drawn : List Bytes} {emitted : List Emission} {store : CredentialStore} {m : Storage}

theorem Agrees.afterPut {cred : StoredCredential} {ownerUid : UInt32} {drawn' : List Bytes}
    (h : Agrees drawn emitted store.stored) (hEmitted : ∀ e ∈ emitted, e.credentialId ∈ drawn)
    (hNew : cred.id ∉ drawn) (hDrawn : drawn <+: drawn') (hIn : cred.id ∈ drawn')
    (hPut : store.afterPut cred ownerUid = .ok m) : Agrees drawn' emitted m := by
  obtain ⟨base, _, _, _, _, hSub, _, rfl⟩ := afterPut_ok hPut
  constructor
  · intro k c hc
    rw [Std.ExtTreeMap.getElem?_insert] at hc
    split at hc
    · cases hc
      exact hIn
    · exact hDrawn.subset (h.known k c (hSub k c hc))
  · intro e he c hc
    rw [Std.ExtTreeMap.getElem?_insert] at hc
    split at hc
    · rename_i hKey
      have hSame := hexEncode_injective (Std.LawfulEqCmp.eq_of_compare hKey)
      exact absurd (hSame ▸ hEmitted e he) hNew
    · exact h.covers e he c (hSub _ c hc)

theorem Agrees.afterIncrement {credId : Bytes} {ownerUid : UInt32}
    (h : Agrees drawn emitted store.stored)
    (hIncrement : store.afterIncrement credId ownerUid = .ok m) : Agrees drawn emitted m := by
  obtain ⟨c, _, hFound, _, hBound, rfl⟩ := afterIncrement_ok hIncrement
  constructor
  · intro k c' hc'
    rw [Std.ExtTreeMap.getElem?_insert] at hc'
    split at hc'
    · cases hc'
      exact h.known _ c hFound
    · exact h.known k c' hc'
  · intro e he c' hc'
    rw [Std.ExtTreeMap.getElem?_insert] at hc'
    split at hc'
    · rename_i hKey
      cases hc'
      have hSame : hexEncode credId = hexEncode e.credentialId :=
        Std.LawfulEqCmp.eq_of_compare hKey
      exact UInt32.le_trans (h.covers e he c (hSame ▸ hFound)) (UInt32.le_of_lt (lt_succ hBound))
    · exact h.covers e he c' hc'

end Operations

/-! ## The invariant -/

/-- What was emitted, against the acknowledged map and every map that an interrupted
operation may have written. -/
structure Tally (P : Platform) (drawn : List Bytes) (emitted : List Emission) (h : History) :
    Prop where
  known : ∀ e ∈ emitted, e.credentialId ∈ drawn
  last : Agrees drawn emitted h.last.stored
  since : ∀ op ∈ h.since, ∀ m, op.change h.last = .ok m → Agrees drawn emitted m
  increasing : emitted.Pairwise fun a b => a.credentialId = b.credentialId → a.count < b.count
  stored : ∀ e ∈ emitted, e.Stored P ∧ e.count ≠ 0

/-- The credentials a sequence has yet to return are as the map has them. -/
structure Snapshot (pending : List StoredCredential) (m : Storage) : Prop where
  stored : ∀ c ∈ pending, m[hexEncode c.id]? = some c
  distinct : (pending.map StoredCredential.id).Nodup

theorem snapshot_nil {m : Storage} : Snapshot [] m := ⟨nofun, .nil⟩

/-- What holds of a daemon at every point of a run. -/
def CountInv (P : Platform) (d : Daemon) (log : List Event) : Prop :=
  ∃ h, StoreInv P d.world h ∧ Tally P d.drawn (emissions log) h

/-- What holds between two commands. -/
def CountReady (P : Platform) (d : Daemon) (log : List Event) : Prop :=
  ∃ h, ReadyInv P d.world h ∧ Tally P d.drawn (emissions log) h ∧
    Snapshot d.getAssertion.sequence.pending d.world.store.stored

/-- A drawn credential id is new. -/
def FreshIds (d : Daemon) (i : Input) : Prop := ∀ x, i.random = .ok x → x.toList ∉ d.drawn

theorem Tally.mono {P : Platform} {drawn drawn' : List Bytes} {h : History}
    (hTally : Tally P drawn emitted h) (hDrawn : drawn <+: drawn') : Tally P drawn' emitted h where
  known := fun e he => hDrawn.subset (hTally.known e he)
  last := hTally.last.mono hDrawn
  since := fun op hOp m hm => (hTally.since op hOp m hm).mono hDrawn
  increasing := hTally.increasing
  stored := hTally.stored

section Commands

variable {L : Libraries} {C : Setting Daemon Input} {d d' : Daemon} {log : List Event} {h : History}
  {emitted : List Emission} {op : Operation}

theorem Drew.fresh {id : Bytes} (hDrew : Drew C d id) (hC : ∀ d i, C.admits d i → FreshIds d i) :
    id ∉ d.drawn := by
  obtain ⟨d₁, i, x, hAdmits, hDrawn, hRandom, rfl⟩ := hDrew
  rw [← hDrawn]
  exact hC d₁ i hAdmits x hRandom

variable {P : Platform} {event : Event} {drawn' : List Bytes} {m : Storage}
  {credential : StoredCredential} {request : CTAPGetAssertionRequest} {store : CredentialStore}
  {rest : List StoredCredential}

/-- The map of an operation that a command runs has caught up as well. -/
theorem Tally.change (hTally : Tally P d.drawn emitted h) (hDrawn : d.drawn <+: drawn')
    (hC : ∀ d i, C.admits d i → FreshIds d i) (hIntends : Intends C d drawn' op)
    (hChange : op.change h.last = .ok m) : Agrees drawn' emitted m := by
  cases hIntends with
  | register hDrew hIn =>
    exact hTally.last.afterPut hTally.known (hDrew.fresh hC) hDrawn hIn hChange
  | assert => exact (hTally.last.afterIncrement hChange).mono hDrawn

theorem Tally.interrupted (hTally : Tally P d.drawn emitted h) (hDrawn : d.drawn <+: drawn')
    (hC : ∀ d i, C.admits d i → FreshIds d i) (hIntends : Intends C d drawn' op) :
    Tally P drawn' emitted (h.interrupted (.update op)) := by
  refine { hTally.mono hDrawn with since := ?_ }
  intro op' hOp' m hm
  rcases List.mem_append.mp hOp' with hOld | hNew
  · exact (hTally.since op' hOld m hm).mono hDrawn
  · rw [List.mem_singleton.mp hNew] at hm
    exact hTally.change hDrawn hC hIntends hm

theorem Tally.committed {w w' : World} (hTally : Tally P d.drawn emitted h)
    (hReady : ReadyInv P w h) (hDrawn : d.drawn <+: drawn')
    (hC : ∀ d i, C.admits d i → FreshIds d i) (hIntends : Intends C d drawn' op)
    (hChange : op.change w.store = .ok m) (hCommitted : Committed P m w w') :
    Tally P drawn' emitted { last := w'.store } := by
  rw [hReady.store_eq hCommitted.installed.startable.ready] at hChange
  refine { hTally.mono hDrawn with last := ?_, since := nofun }
  rw [hCommitted.store]
  exact hTally.change hDrawn hC hIntends hChange

/-- What is known of an operation that returns, and of one that throws. -/
def Commits (P : Platform) (op : Operation) (w w' : World) : Prop :=
  ∃ m, op.change w.store = .ok m ∧ Committed P m w w'

def Aborts (P : Platform) (op : Operation) (w w' : World) : Prop :=
  CommitFails P op.change True w w'

theorem CountReady.settled (hReady : CountReady P d log) (hC : ∀ d i, C.admits d i → FreshIds d i)
    (hSettled : Settled C (Commits P) (Aborts P) d d') : CountInv P d' log := by
  obtain ⟨h, hStore, hTally, _⟩ := hReady
  obtain ⟨hDrawn, hSame | ⟨op, hIntends, ⟨m, hChange, hCommitted⟩ | hFails⟩⟩ := hSettled
  · exact ⟨h, hSame ▸ hStore.inv, hTally.mono hDrawn⟩
  · exact ⟨_, (hStore.committed hChange hCommitted).inv,
      hTally.committed hStore hDrawn hC hIntends hChange hCommitted⟩
  · exact ⟨_, (hStore.failed hFails).inv, hTally.interrupted hDrawn hC hIntends⟩

/-- The setting of a call that starts with this log. -/
abbrev counting (P : Platform) (log : List Event) : Setting Daemon Input :=
  .among Service.nobody FreshIds fun _ d' => CountInv P d' log

theorem storeRuns_of_ready (hL : L.Lawful) (hReady : CountReady L.toPlatform d log) :
    StoreRuns L (counting L.toPlatform log) (Commits L.toPlatform) (Aborts L.toPlatform) d := by
  intro op d' hQuiet hIntends
  obtain ⟨h, hStore, hTally, _⟩ := hReady
  have hStore' : ReadyInv L.toPlatform d'.world h := hQuiet.world ▸ hStore
  refine wp_mono (wp_withStore_alone ?_ (wp_call hL.platform hStore' (.update op)
    Service.keeps_nobody)) ?_ ?_
  · intro w hInv
    exact ⟨_, hInv, hTally.interrupted hQuiet.drawn (fun _ _ hi => hi) hIntends⟩
  · intro _ d'' hRan
    exact hRan
  · rintro _ d'' ⟨w, hFails, rfl⟩
    exact ⟨w, hFails.mono fun _ => trivial, rfl⟩

/-! ## Assertions -/

theorem emissions_append :
    emissions (log ++ [event]) = emissions log ++ event.emission?.toList := by
  cases hEvent : event.emission? <;> simp [emissions, hEvent]

theorem Asserts.emission {ceremony : Ceremony} {payload : Bytes} (hL : L.Lawful)
    (hAsserts : Asserts L request credential ceremony payload) (reply : Reply)
    (hPayload : reply.packet.payload = payload) :
    reply.emission? = some ⟨credential.id, credential.signCount + 1, reply.world⟩ := by
  rw [Reply.emission?, hPayload, hAsserts.credentialId, hAsserts.authData]
  show some _ = some _
  rw [signCountOf_authData hL]

theorem Snapshot.afterIncrement {ownerUid : UInt32}
    (hSnapshot : Snapshot (credential :: rest) store.stored)
    (hIncrement : store.afterIncrement credential.id ownerUid = .ok m) : Snapshot rest m := by
  obtain ⟨c, _, _, _, _, rfl⟩ := afterIncrement_ok hIncrement
  obtain ⟨hNew, hDistinct⟩ := List.nodup_cons.mp hSnapshot.distinct
  refine ⟨fun c' hc' => ?_, hDistinct⟩
  rw [Std.ExtTreeMap.getElem?_insert]
  split
  · rename_i hKey
    have hSame := hexEncode_injective (Std.LawfulEqCmp.eq_of_compare hKey)
    exact absurd (List.mem_map.mpr ⟨c', hc', hSame.symm⟩) hNew
  · exact hSnapshot.stored c' (List.mem_cons_of_mem _ hc')

/-- One more counter, higher than the earlier ones of its credential and now stored. -/
theorem Tally.emit {drawn : List Bytes} {e : Emission} {c : StoredCredential}
    (hTally : Tally P drawn emitted { last := store })
    (hEntry : store.stored[hexEncode e.credentialId]? = some c) (hCount : c.signCount = e.count)
    (hDrawn : e.credentialId ∈ drawn)
    (hNew : ∀ e' ∈ emitted, e'.credentialId = e.credentialId → e'.count < e.count)
    (hStored : e.Stored P) (hZero : e.count ≠ 0) :
    Tally P drawn (emitted ++ [e]) { last := store } where
  known := List.forall_mem_append.mpr ⟨hTally.known, List.forall_mem_singleton.mpr hDrawn⟩
  last := by
    refine ⟨hTally.last.known, List.forall_mem_append.mpr ⟨hTally.last.covers, ?_⟩⟩
    refine List.forall_mem_singleton.mpr fun c' hc' => ?_
    rw [hEntry] at hc'
    cases hc'
    exact UInt32.le_of_eq hCount.symm
  since := nofun
  increasing := by
    refine List.pairwise_append.mpr ⟨hTally.increasing, List.pairwise_singleton _ _, ?_⟩
    intro e' he' b hb
    rw [List.mem_singleton.mp hb]
    exact hNew e' he'
  stored := List.forall_mem_append.mpr ⟨hTally.stored, List.forall_mem_singleton.mpr ⟨hStored, hZero⟩⟩

/-- An assertion of a credential whose counter is the stored one: the counter it emits is
new, and it is the one that is stored from then on. -/
theorem CountReady.asserted {ownerUid : UInt32} {reply : Reply} (hL : L.Lawful)
    (hReady : CountReady L.toPlatform d log) (hDrawn : d'.drawn = d.drawn)
    (hSnapshot : Snapshot (credential :: rest) d.world.store.stored)
    (hPending : d'.getAssertion.sequence.pending = rest ∨ d'.getAssertion.sequence.pending = [])
    (hAsserts : Asserts L request credential d'.ceremony reply.packet.payload)
    (hWorld : reply.world = d'.world)
    (hRan : Commits L.toPlatform (.incrementSigCount credential.id ownerUid) d.world d'.world) :
    CountReady L.toPlatform d' (log ++ [.replied reply]) := by
  obtain ⟨h, hStore, hTally, _⟩ := hReady
  obtain ⟨m, hChange, hCommitted⟩ := hRan
  have hRest := hSnapshot.afterIncrement hChange
  obtain ⟨c, _, hFound, _, hBound, hMap⟩ := afterIncrement_ok hChange
  have hSame : some c = some credential :=
    hFound.symm.trans (hSnapshot.stored credential List.mem_cons_self)
  obtain rfl := Option.some.inj hSame
  have hNow : d'.world.store.stored = m := by rw [hCommitted.store]
  have hEntry : m[hexEncode c.id]? = some { c with signCount := c.signCount + 1 } := by
    rw [hMap, Std.ExtTreeMap.getElem?_insert_self]
  have hEmission : Event.emission? (.replied reply) = some ⟨c.id, c.signCount + 1, d'.world⟩ := by
    rw [← hWorld]
    exact hAsserts.emission hL reply rfl
  have hTally' : Tally L.toPlatform d.drawn (emissions log) { last := d'.world.store } :=
    hTally.committed (C := counting L.toPlatform log) hStore (List.prefix_refl _)
      (fun _ _ hi => hi) .assert hChange hCommitted
  have hLess : c.signCount < c.signCount + 1 := lt_succ hBound
  refine ⟨_, hStore.committed hChange hCommitted, ?_, ?_⟩
  · rw [emissions_append, hEmission, hDrawn]
    apply hTally'.emit (hNow ▸ hEntry) rfl
    · exact hTally.last.known _ c (hStore.stored ▸ hFound)
    · intro e he hId
      refine UInt32.lt_of_le_of_lt (hTally.last.covers e he c ?_) hLess
      rw [hId, ← hStore.stored]
      exact hFound
    · obtain ⟨file, hFile, _, hSeals⟩ := hCommitted.installed.file
      refine ⟨⟨_, hNow ▸ hEntry, rfl⟩, file, hFile, ?_⟩
      show Seals _ file d'.world.disk.counter d'.world.store.stored
      rw [hNow, hCommitted.counter]
      exact hSeals
    · intro hZero
      have hZero : c.signCount + 1 = 0 := hZero
      rw [hZero] at hLess
      exact absurd hLess (UInt32.not_lt_zero)
  · rw [hNow]
    rcases hPending with hPending | hPending
    · rw [hPending]
      exact hRest
    · rw [hPending]
      exact snapshot_nil

/-! ## Commands -/

theorem emissions_append_none (h : event.emission? = none) :
    emissions (log ++ [event]) = emissions log := by
  rw [emissions_append, h, Option.toList_none, List.append_nil]

section

variable (hReady : CountReady P d log)
include hReady

theorem CountReady.inv : CountInv P d log := by
  obtain ⟨h, hStore, hTally, _⟩ := hReady
  exact ⟨h, hStore.inv, hTally⟩

theorem CountReady.valid : d.world.store.stored.Valid := by
  obtain ⟨h, hStore, _⟩ := hReady
  exact hStore.stored ▸ hStore.inv.valid

/-- A command that changed nothing, and whose sequence is over. -/
theorem CountReady.still (hWorld : d'.world = d.world)
    (hDrawn : d.drawn <+: d'.drawn) (hCleared : d'.getAssertion = {})
    (hEvent : event.emission? = none) : CountReady P d' (log ++ [event]) := by
  obtain ⟨h, hStore, hTally, _⟩ := hReady
  rw [CountReady, emissions_append_none hEvent, hCleared, hWorld]
  exact ⟨h, hStore, hTally.mono hDrawn, snapshot_nil⟩

theorem CountReady.dropped (hC : ∀ d i, C.admits d i → FreshIds d i)
    (hDropped : Dropped C (Aborts P) d d') (hEvent : event.emission? = none) :
    CountReady P d' (log ++ [event]) := by
  obtain ⟨⟨hDrawn, hSame | ⟨op, hIntends, hFails⟩⟩, hCleared⟩ := hDropped
  · exact hReady.still hSame hDrawn hCleared hEvent
  · obtain ⟨h, hStore, hTally, _⟩ := hReady
    rw [CountReady, emissions_append_none hEvent, hCleared]
    exact ⟨_, hStore.failed hFails, hTally.interrupted hDrawn hC hIntends, snapshot_nil⟩

theorem CountReady.registered
    (hC : ∀ d i, C.admits d i → FreshIds d i) (hDrawn : d.drawn <+: d'.drawn)
    (hIntends : Intends C d d'.drawn op) (hRan : Commits P op d.world d'.world)
    (hCleared : d'.getAssertion = {}) (hEvent : event.emission? = none) :
    CountReady P d' (log ++ [event]) := by
  obtain ⟨h, hStore, hTally, _⟩ := hReady
  obtain ⟨m, hChange, hCommitted⟩ := hRan
  rw [CountReady, emissions_append_none hEvent, hCleared]
  exact ⟨_, hStore.committed hChange hCommitted,
    hTally.committed hStore hDrawn hC hIntends hChange hCommitted, snapshot_nil⟩

end

theorem credentialIdOf_error (error : CTAPError) : credentialIdOf [error.code] = none := by
  cases error <;> rfl

theorem credentialIdOf_getinfo {payload : Bytes} (h : buildGetinfoResponse = .ok payload) :
    credentialIdOf payload = none := by
  have hClosed : (buildGetinfoResponse.toOption.bind credentialIdOf) = none := by decide +kernel
  rw [h] at hClosed
  exact hClosed

theorem Reply.emission?_none {reply : Reply} (h : credentialIdOf reply.packet.payload = none) :
    Event.emission? (.replied reply) = none := by
  show reply.emission? = none
  rw [Reply.emission?, h]
  rfl

/-- What a new sequence has yet to return. -/
theorem Begins.pending {request : AssertionParameters} {cid : UInt32} {user : UserContext}
    {remaining : List StoredCredential} (hBegins : Begins request cid user remaining d) :
    d.getAssertion.sequence.pending = remaining ∨ d.getAssertion.sequence.pending = [] := by
  unfold Begins at hBegins
  split at hBegins
  · obtain ⟨now, _, hSequence⟩ := hBegins
    rw [hSequence, AssertionSequence.begun]
    split
    · exact .inr rfl
    · exact .inl rfl
  · rw [hBegins]
    exact .inr rfl

/-- Every way in which a command returns keeps the invariant. -/
theorem CountReady.handled {request : CborRequest} {packet : CTAPPacket} (hL : L.Lawful)
    (hReady : CountReady L.toPlatform d log)
    (hC : ∀ d i, C.admits d i → FreshIds d i)
    (hHandled : Handled L C (Commits L.toPlatform) (Aborts L.toPlatform) request d packet d') :
    CountReady L.toPlatform d' (log ++ [.replied ⟨request, packet, d'.ceremony, d'.world⟩]) := by
  cases hHandled with
  | @refused error _ hDropped =>
    exact hReady.dropped hC hDropped (Reply.emission?_none (credentialIdOf_error error))
  | foreign _ _ =>
    rw [CountReady, emissions_append_none (Reply.emission?_none rfl)]
    exact hReady
  | info _ hPayload =>
    exact hReady.still rfl (List.prefix_refl _) rfl
      (Reply.emission?_none (credentialIdOf_getinfo hPayload))
  | @registered makeCredential _ credId _ payload _ _ _ h =>
    have hDrawn : d.drawn <+: d'.drawn := h.drawn ▸ List.prefix_append _ _
    have hNone : Event.emission? (.replied
        ⟨request, successPacket request.cid payload, d'.ceremony, d'.world⟩) = none :=
      Reply.emission?_none h.attests.credentialId
    have hRan := h.ran
    by_cases hDummy : makeCredential.isDummy = true
    · rw [if_pos hDummy] at hRan
      exact hReady.still hRan hDrawn h.cleared hNone
    · rw [if_neg hDummy] at hRan
      have hIn : credId ∈ d'.drawn := by simp [h.drawn]
      exact hReady.registered hC hDrawn (.register h.drew hIn) hRan h.cleared hNone
  | asserted _ _ h =>
    have hMatching := findForAssertion_spec hL.platform hReady.valid h.found
    exact hReady.asserted hL h.drawn ⟨hMatching.stored, hMatching.distinct⟩ h.begins.pending
      h.asserts rfl h.ran
  | continued _ _ h =>
    obtain ⟨_, _, hAdvances⟩ := h.next
    have hSnapshot : Snapshot d.getAssertion.sequence.pending d.world.store.stored := by
      obtain ⟨_, _, _, hSnapshot⟩ := hReady
      exact hSnapshot
    rw [hAdvances.pending] at hSnapshot
    exact hReady.asserted hL h.drawn hSnapshot (.inl rfl) h.asserts rfl h.ran

end Commands

/-! ## Every run -/

section Runs

variable {L : Libraries} {d d' : Daemon} {log : List Event}

theorem wp_load_counting (hInv : CountInv L.toPlatform d log) (hCleared : d.getAssertion = {}) :
    wp (counting L.toPlatform log) (fun _ d' => CountReady L.toPlatform d' (log ++ [.loaded]))
      (fun _ d' => CountInv L.toPlatform d' log) (withStore (Store.load L.toPlatform)) d := by
  obtain ⟨h, hStore, hTally⟩ := hInv
  refine wp_mono (wp_withStore_alone ?_ (wp_boot hStore Service.keeps_nobody)) ?_ ?_
  · intro w hInv
    exact ⟨h, hInv, hTally⟩
  · rintro _ _ ⟨w, ⟨hReached, hLoaded⟩, rfl⟩
    rw [CountReady, emissions_append_none rfl, hCleared]
    refine ⟨_, hStore.loaded hReached hLoaded, { hTally with last := ?_, since := nofun }, snapshot_nil⟩
    rcases hStore.durable.recovered hLoaded with hLast | ⟨op, hOp, hChange⟩
    · exact hLast ▸ hTally.last
    · exact hTally.since op hOp _ hChange
  · rintro _ _ ⟨w, hFails, rfl⟩
    exact ⟨h, hStore.reaches hFails.reaches, hTally⟩

theorem wp_serve_counting {request : CborRequest} (hL : L.Lawful)
    (hReady : CountReady L.toPlatform d log) :
    wp (counting L.toPlatform log) (fun packet d' => CountReady L.toPlatform d'
        (log ++ [.replied ⟨request, packet, d'.ceremony, d'.world⟩]))
      (fun _ d' => CountReady L.toPlatform d' (log ++ [.threw request])) (serve L request) d := by
  have hReady : CountReady L.toPlatform d.newRecord log := hReady
  have hFresh : ∀ d i, (counting L.toPlatform log).admits d i → FreshIds d i := fun _ _ hi => hi
  refine wp_mono (wp_serve (Service.keeps_nobody.mono fun _ h => hReady.settled hFresh h)
    (storeRuns_of_ready hL hReady)) ?_ ?_
  · intro packet d' hHandled
    exact hReady.handled hL hFresh hHandled
  · intro e d' hDropped
    exact hReady.dropped hFresh hDropped rfl

theorem authenticator_counting (hL : L.Lawful) :
    (authenticator L).Invariant Service.nobody FreshIds (CountInv L.toPlatform)
      (CountReady L.toPlatform) := by
  refine .alone ?_ ?_ ?_ (fun k d log h => h.inv) (fun d log h => h.inv)
  · intro d log hInv
    have hRestart : CountInv L.toPlatform ((authenticator L).restart d) log := by
      obtain ⟨h, hStore, hTally⟩ := hInv
      exact ⟨h, hStore.restart, hTally⟩
    refine wp_seq (wp_load_counting hRestart rfl) ?_ ?_
    · intro _ d' hReady
      exact hReady
    · intro e d' hFailed
      show CountInv _ _ (log ++ [])
      rwa [List.append_nil]
  · intro k d log hAccepts hReady
    cases k with
    | load => cases hAccepts
    | command request =>
      refine wp_seq (wp_serve_counting hL hReady) ?_ ?_
      · intro packet d' hReady'
        exact hReady'
      · intro e d' hReady'
        exact hReady'
    | reset =>
      refine wp_bind.mpr (wp_keeps_modify Service.keeps_nobody hReady.inv ?_)
      exact hReady.still rfl (List.prefix_refl _) rfl rfl
  · intro d log hInv
    obtain ⟨h, hStore, hTally⟩ := hInv
    exact ⟨h, hStore.restart, hTally⟩

theorem blank_counting {P : Platform} : CountInv P {} [] :=
  ⟨{}, fresh_holds, ⟨nofun, ⟨by simp, nofun⟩, nofun, .nil, nofun⟩⟩

theorem tally_of_steps (hL : L.Lawful)
    {c : Service.Config Daemon Input Exn AuthenticatorCall (Option CTAPPacket) (List Event)}
    (hRun : Service.Steps (authenticator L) Service.nobody FreshIds blank c) :
    CountInv L.toPlatform c.state c.ghost := by
  have hHolds := (authenticator_counting hL).holds (c := blank) blank_counting hRun
  obtain ⟨φ, d, log⟩ := c
  cases φ with
  | down => exact hHolds
  | ready => exact hHolds.inv
  | busy booting k p => exact hHolds.1

/-- **Signature counters never repeat or go back.** In every run of the authenticator in
which no credential id is drawn twice, the counters emitted for a credential increase, none
of them is a counter that wrapped around, and each was the one in memory and in the
committed file when its assertion was returned. -/
theorem sign_counts_increase (hL : L.Lawful)
    {c : Service.Config Daemon Input Exn AuthenticatorCall (Option CTAPPacket) (List Event)}
    (hRun : Service.Steps (authenticator L) Service.nobody FreshIds blank c) :
    (∀ id, (((emissions c.ghost).filter fun e => e.credentialId = id).map Emission.count).Pairwise
      (· < ·)) ∧
    ∀ e ∈ emissions c.ghost, e.Stored L.toPlatform ∧ e.count ≠ 0 := by
  obtain ⟨h, _, hTally⟩ := tally_of_steps hL hRun
  refine ⟨fun id => ?_, hTally.stored⟩
  rw [List.pairwise_map]
  refine (hTally.increasing.filter _).imp_of_mem fun {a b} ha hb hLess => hLess ?_
  have hA := (List.mem_filter.mp ha).2
  have hB := (List.mem_filter.mp hb).2
  simp only [decide_eq_true_eq] at hA hB
  rw [hA, hB]

/-- After the sample session the first credential of the matches is asserted again. -/
def repeatedAssertion : List (Service.Action Daemon Input AuthenticatorCall) :=
  sampleSession ++ [.invoke (.command sampleGetAssertion)] ++ Service.feed 37 approving ++ [.finish]

/-- The check that a drawn id is new. -/
def drawsFresh (d : Daemon) (i : Input) : Bool :=
  match i.random with
  | .ok x => !d.drawn.contains x.toList
  | .error _ => true

theorem sign_counts_increase_repeatedAssertion : ∃ c,
    Service.Steps (authenticator sampleLibraries) Service.nobody FreshIds blank c ∧
    (emissions c.ghost).map (fun e => (e.credentialId.head?, e.count)) =
      [(some 2, 1), (some 1, 1), (some 2, 2)] ∧
    (∀ id, (((emissions c.ghost).filter fun e => e.credentialId = id).map Emission.count).Pairwise
      (· < ·)) ∧
    ∀ e ∈ emissions c.ghost, e.Stored sampleLibraries.toPlatform ∧ e.count ≠ 0 := by
  have hEnds : (Service.exec (authenticator sampleLibraries) drawsFresh repeatedAssertion blank).any
      (fun c => (emissions c.ghost).map (fun e => (e.credentialId.head?, e.count)) =
        [(some 2, 1), (some 1, 1), (some 2, 2)]) = true := by
    decide +kernel
  obtain ⟨c, hExec, hEmitted⟩ := (Option.any_eq_true _ _).mp hEnds
  have hRun : Service.Steps (authenticator sampleLibraries) Service.nobody FreshIds blank c := by
    refine Service.steps_exec_nobody _ _ ?_ (by decide +kernel) hExec
    intro d i hFresh x hx
    rw [drawsFresh, hx] at hFresh
    simpa using hFresh
  exact ⟨c, hRun, of_decide_eq_true hEmitted, sign_counts_increase sampleLibraries_lawful hRun⟩

end Runs

end VAuth.Ctap
