import VAuth.Process.Run
import VAuth.System.Machine

/-!
# What a process does under the lock

`SharedInv` is what holds of the store directory, the TPM and the log at every moment: the store
is unused, or its file, its counter and the log fit together; every load yielded what was
acknowledged before it, and every operation was applied to that; all keys that were ever unsealed
are the one in the TPM. A process that holds the lock keeps it in each of its steps, so that it may
be killed anywhere.
-/

namespace VAuth.System

open Proc Store

/-! ## The log -/

def Event.note (h : History) : Event → History
  | .began _ call => h.interrupted call
  | .returned _ _ store => { last := store }
  | .provisioned _ => h
  | .unsealed _ _ => h

/-- The history of the store that the log tells. -/
def historyOf (log : List Event) : History := log.foldl Event.note {}

theorem historyOf_append (log : List Event) (event : Event) :
    historyOf (log ++ [event]) = event.note (historyOf log) := by
  rw [historyOf, List.foldl_append]
  rfl

/-- What a call that returned must have yielded, given the history before it. -/
def Justified (h : History) : Call → CredentialStore → Prop
  | .load, store => Recovered h store.stored
  | .update op, store => op.change h.last = .ok store.stored

/-- Every call that returned did so right after it began, with a justified result. -/
def Sequential (log : List Event) : Prop :=
  ∀ past pid call store rest, log = past ++ .returned pid call store :: rest →
    ∃ before, past = before ++ [.began pid call] ∧ Justified (historyOf before) call store

/-- The events of one process are not mixed with those of others. -/
def Serial (log : List Event) : Prop :=
  ∀ before first between last after, log = before ++ first :: between ++ last :: after →
    first.pid = last.pid → ∀ event ∈ between, event.pid = first.pid

/-! ## The invariant -/

/-- The object opens to this key and this origin. -/
def Opens (tpm : Tpm) (key : Bytes) (counterOrigin : UInt64) : Prop :=
  ∃ object, tpm.sealed = some object ∧ openMaterial object.data = .ok (key, counterOrigin)

theorem Opens.unique {tpm : Tpm} {key key' : Bytes} {counterOrigin counterOrigin' : UInt64}
    (h : Opens tpm key counterOrigin) (h' : Opens tpm key' counterOrigin') :
    key = key' ∧ counterOrigin = counterOrigin' := by
  obtain ⟨object, hObject, hOpen⟩ := h
  obtain ⟨object', hObject', hOpen'⟩ := h'
  rw [hObject] at hObject'
  cases hObject'
  rw [hOpen] at hOpen'
  cases hOpen'
  exact ⟨rfl, rfl⟩

/-- The store directory, the TPM and the history fit together. -/
inductive Condition (P : Bytes → Platform) (s : Shared) : Prop
  | unused (hFile : s.disk.file = none) (hLast : (historyOf s.log).last = {})
  | used {authorization key : Bytes} {value counterOrigin : UInt64}
      (hCounter : s.tpm.counter = some ⟨authorization, some value⟩)
      (hOpens : Opens s.tpm key counterOrigin)
      (hStore : StoreInv (P key) ⟨{ s.disk with counter := value - counterOrigin }, {}⟩
        (historyOf s.log))

/-- What the log says about the processes and the TPM. -/
structure LogInv (tpm : Tpm) (log : List Event) : Prop where
  sequential : Sequential log
  serial : Serial log
  unsealed : ∀ pid key, .unsealed pid key ∈ log → ∃ counterOrigin, Opens tpm key counterOrigin
  provisioned : ∀ pid, .provisioned pid ∈ log → tpm.counter ≠ none
  once : ∀ before pid after, log = before ++ .provisioned pid :: after →
    ∀ pid', .provisioned pid' ∉ before

structure SharedInv (P : Bytes → Platform) (s : Shared) : Prop where
  condition : Condition P s
  log : LogInv s.tpm s.log

/-- What a process keeps that took the lock with this log. -/
structure OwnInv (P : Bytes → Platform) (pid : Nat) (log : List Event) (s : Image) : Prop where
  shared : SharedInv P s.toShared
  directory : s.disk.directory = true
  own : ∃ new, s.log = log ++ new ∧ ∀ event ∈ new, event.pid = pid

/-- The setting of a process that took the lock with this log. -/
abbrev owning (P : Bytes → Platform) (pid : Nat) (log : List Event) : Setting Image Turn :=
  .among Service.nobody (fun _ _ => True) fun _ s' => OwnInv P pid log s'

section Events

variable {P : Bytes → Platform} {pid : Nat} {log : List Event} {s : Image} {event : Event}

theorem append_singleton_inj {α : Type} {xs ys zs : List α} {x y : α}
    (h : xs ++ [x] = ys ++ y :: zs) :
    (zs = [] ∧ xs = ys ∧ x = y) ∨ ∃ zs', zs = zs' ++ [x] ∧ xs = ys ++ y :: zs' := by
  rcases List.eq_nil_or_concat zs with rfl | ⟨zs', last, rfl⟩
  · obtain ⟨rfl, hLast⟩ := List.append_inj' h rfl
    cases hLast
    exact .inl ⟨rfl, rfl, rfl⟩
  · rw [List.concat_eq_append, ← List.cons_append, ← List.append_assoc] at h
    obtain ⟨rfl, hLast⟩ := List.append_inj' h rfl
    cases hLast
    exact .inr ⟨zs', List.concat_eq_append, rfl⟩

theorem Serial.append {new : List Event} (h : Serial (log ++ new))
    (hOld : ∀ e ∈ log, e.pid ≠ pid) (hNew : ∀ e ∈ new, e.pid = pid) (hEvent : event.pid = pid) :
    Serial (log ++ new ++ [event]) := by
  intro before first between last after hLog hPid e he
  rcases append_singleton_inj hLog with ⟨-, hParts, rfl⟩ | ⟨after', -, hParts⟩
  · -- The last event is the new one, so that the first one belongs to the same process.
    have hFirst : first.pid = pid := hPid.trans hEvent
    rw [hFirst]
    rcases List.append_eq_append_iff.mp hParts with ⟨rest, -, hRest⟩ | ⟨rest, hRest, hBetween⟩
    · exact hNew e (hRest ▸ List.mem_append_right _ (List.mem_cons_of_mem _ he))
    · cases rest with
      | nil =>
        rw [List.nil_append] at hBetween
        exact hNew e (hBetween ▸ List.mem_cons_of_mem _ he)
      | cons x rest =>
        cases hBetween
        exact absurd hFirst (hOld first (hRest ▸ List.mem_append_right _ List.mem_cons_self))
  · exact h before first between last after' hParts hPid e he

theorem Sequential.append_other (h : Sequential log)
    (hEvent : ∀ pid call store, event ≠ .returned pid call store) :
    Sequential (log ++ [event]) := by
  intro past pid call store rest hLog
  rcases append_singleton_inj hLog with ⟨-, -, hLast⟩ | ⟨rest', -, hParts⟩
  · exact absurd hLast (hEvent _ _ _)
  · exact h past pid call store rest' hParts

theorem Sequential.append_returned {call : Call} {store : CredentialStore}
    (h : Sequential (log ++ [.began pid call]))
    (hJustified : Justified (historyOf log) call store) :
    Sequential (log ++ [.began pid call] ++ [.returned pid call store]) := by
  intro past pid' call' store' rest hLog
  rcases append_singleton_inj hLog with ⟨-, hPast, hLast⟩ | ⟨rest', -, hParts⟩
  · cases hLast
    exact ⟨log, hPast.symm, hJustified⟩
  · exact h past pid' call' store' rest' hParts

theorem LogInv.append {tpm : Tpm} (h : LogInv tpm log) (hSequential : Sequential (log ++ [event]))
    (hSerial : Serial (log ++ [event]))
    (hUnsealed : ∀ pid key, event = .unsealed pid key →
      ∃ counterOrigin, Opens tpm key counterOrigin)
    (hProvisioned : ∀ pid, event = .provisioned pid → tpm.counter ≠ none ∧
      ∀ pid', .provisioned pid' ∉ log) : LogInv tpm (log ++ [event]) where
  sequential := hSequential
  serial := hSerial
  unsealed := by
    intro pid key hMem
    rcases List.mem_append.mp hMem with hOld | hNew
    · exact h.unsealed pid key hOld
    · exact hUnsealed pid key (List.mem_singleton.mp hNew).symm
  provisioned := by
    intro pid hMem
    rcases List.mem_append.mp hMem with hOld | hNew
    · exact h.provisioned pid hOld
    · exact (hProvisioned pid (List.mem_singleton.mp hNew).symm).1
  once := by
    intro before pid after hLog
    rcases append_singleton_inj hLog with ⟨-, hParts, hEvent⟩ | ⟨after', -, hParts⟩
    · exact hParts ▸ (hProvisioned pid hEvent).2
    · exact h.once before pid after' hParts

theorem LogInv.tpm {tpm tpm' : Tpm} (h : LogInv tpm log)
    (hSealed : ∀ object, tpm.sealed = some object → tpm'.sealed = some object)
    (hCounter : tpm.counter ≠ none → tpm'.counter ≠ none) : LogInv tpm' log where
  sequential := h.sequential
  serial := h.serial
  unsealed := by
    intro pid key hMem
    obtain ⟨counterOrigin, object, hObject, hOpen⟩ := h.unsealed pid key hMem
    exact ⟨counterOrigin, object, hSealed object hObject, hOpen⟩
  provisioned := fun pid hMem => hCounter (h.provisioned pid hMem)
  once := h.once

theorem Condition.append_other {s : Shared} (h : Condition P s)
    (hEvent : ∀ h, event.note h = h) : Condition P { s with log := s.log ++ [event] } := by
  have hHistory : historyOf (s.log ++ [event]) = historyOf s.log := by
    rw [historyOf_append, hEvent]
  cases h with
  | unused hFile hLast =>
    refine .unused hFile ?_
    rw [hHistory]
    exact hLast
  | used hCounter hOpens hStore =>
    refine .used hCounter hOpens ?_
    rw [hHistory]
    exact hStore

theorem Condition.append_began {s : Shared} {call : Call} (h : Condition P s) :
    Condition P { s with log := s.log ++ [.began pid call] } := by
  have hHistory : historyOf (s.log ++ [.began pid call]) = (historyOf s.log).interrupted call := by
    rw [historyOf_append]
    rfl
  cases h with
  | unused hFile hLast =>
    refine .unused hFile ?_
    rw [hHistory, last_interrupted]
    exact hLast
  | used hCounter hOpens hStore =>
    refine .used hCounter hOpens ?_
    rw [hHistory]
    exact hStore.interrupted call

theorem OwnInv.own_append (h : OwnInv P pid log s) (hEvent : event.pid = pid) :
    ∃ new, s.log ++ [event] = log ++ new ∧ ∀ e ∈ new, e.pid = pid := by
  obtain ⟨new, hLog, hNew⟩ := h.own
  refine ⟨new ++ [event], by rw [hLog, List.append_assoc], fun e he => ?_⟩
  rcases List.mem_append.mp he with hMem | hMem
  · exact hNew e hMem
  · rw [List.mem_singleton.mp hMem]
    exact hEvent

variable (hOld : ∀ e ∈ log, e.pid ≠ pid)
include hOld

/-- An event of the process that holds the lock. -/
theorem OwnInv.serial_append (h : OwnInv P pid log s) (hEvent : event.pid = pid) :
    Serial (s.log ++ [event]) := by
  obtain ⟨new, hLog, hNew⟩ := h.own
  have hSerial := h.shared.log.serial
  rw [hLog] at hSerial ⊢
  exact hSerial.append hOld hNew hEvent

theorem OwnInv.began (h : OwnInv P pid log s) (call : Call) :
    OwnInv P pid log { s with log := s.log ++ [.began pid call] } where
  shared := ⟨h.shared.condition.append_began, h.shared.log.append
    (h.shared.log.sequential.append_other fun _ _ _ => Event.noConfusion)
    (h.serial_append hOld rfl) (fun _ _ => Event.noConfusion) (fun _ => Event.noConfusion)⟩
  directory := h.directory
  own := h.own_append rfl

theorem OwnInv.unsealed {key : Bytes} {counterOrigin : UInt64} (h : OwnInv P pid log s)
    (hOpens : Opens s.tpm key counterOrigin) :
    OwnInv P pid log { s with log := s.log ++ [.unsealed pid key] } where
  shared := by
    refine ⟨h.shared.condition.append_other fun _ => rfl, h.shared.log.append
      (h.shared.log.sequential.append_other fun _ _ _ => Event.noConfusion)
      (h.serial_append hOld rfl) (fun pid' key' hEvent => ?_) (fun _ => Event.noConfusion)⟩
    cases hEvent
    exact ⟨counterOrigin, hOpens⟩
  directory := h.directory
  own := h.own_append rfl

theorem OwnInv.provisioned (h : OwnInv P pid log s) (hCounter : s.tpm.counter ≠ none)
    (hFirst : ∀ pid', .provisioned pid' ∉ s.log) :
    OwnInv P pid log { s with log := s.log ++ [.provisioned pid] } where
  shared := ⟨h.shared.condition.append_other fun _ => rfl, h.shared.log.append
    (h.shared.log.sequential.append_other fun _ _ _ => Event.noConfusion)
    (h.serial_append hOld rfl) (fun _ _ => Event.noConfusion) (fun _ _ => ⟨hCounter, hFirst⟩)⟩
  directory := h.directory
  own := h.own_append rfl

end Events

/-! ## The parts of a process -/

section Parts

variable {P : Bytes → Platform} {pid : Nat} {log : List Event} {s : Image} {α : Type}

theorem wp_record {event : Image → Event} {Q : Unit → Image → Prop} {E : Exn → Image → Prop}
    (h : OwnInv P pid log { s with log := s.log ++ [event s] })
    (hQ : Q () { s with log := s.log ++ [event s] }) :
    wp (owning P pid log) Q E (record event) s :=
  wp_keeps_modify Service.keeps_nobody h hQ

theorem wp_withSecurity {p : SecurityProc α} {G : Security → Prop} {Q : α → Security → Prop}
    {E : Exn → Security → Prop}
    (h : wp (.among Service.nobody (fun _ _ => True) fun _ x => G x) Q E p ⟨s.tpm, s.counterOrigin⟩)
    (hG : ∀ x, G x → OwnInv P pid log (s.setSecurity x)) :
    wp (owning P pid log) (fun a s' => ∃ x, Q a x ∧ s' = s.setSecurity x)
      (fun e s' => ∃ x, E e x ∧ s' = s.setSecurity x) (withSecurity p) s := by
  refine wp_mono (wp_embed (J := fun t => ∃ x, t = s.setSecurity x)
    (fun t u hJ hRely => ?_) (fun _ _ _ _ => trivial) ?_ id ⟨⟨s.tpm, s.counterOrigin⟩, rfl⟩ h) ?_ ?_
  · obtain rfl := Service.eq_of_nobody hRely
    exact ⟨.refl, hJ⟩
  · rintro _ x ⟨y, rfl⟩ hx
    exact ⟨rfl, ⟨x, rfl⟩, hG x hx⟩
  · rintro a _ ⟨hQ, x, rfl⟩
    exact ⟨x, hQ, rfl⟩
  · rintro e _ ⟨hE, x, rfl⟩
    exact ⟨x, hE, rfl⟩

/-! ### The counter of the store is the one in the TPM -/

/-- The counter has a value and the process knows its origin. -/
structure Image.Readable (s : Image) (authorization : Bytes) (value counterOrigin : UInt64) :
    Prop where
  counter : s.tpm.counter = some ⟨authorization, some value⟩
  origin : s.counterOrigin = some counterOrigin

/-- Where it cannot be read, it is not written either. -/
structure Image.Unreadable (s : Image) : Prop where
  generation : s.generation = 0
  keeps : ∀ g, setGeneration s.counterOrigin g s.tpm = s.tpm
  fails : s.counterOrigin ≠ none → ∀ authorization counterOrigin a,
    (readGeneration authorization counterOrigin a s.tpm).isOk = false

theorem readable_or_unreadable (s : Image) :
    (∃ authorization value counterOrigin, s.Readable authorization value counterOrigin) ∨
      s.Unreadable := by
  obtain ⟨⟨disk, ⟨counter, object⟩, log⟩, ⟨store, origin⟩⟩ := s
  cases counter with
  | none =>
    refine .inr ⟨rfl, fun _ => rfl, fun _ _ _ _ => rfl⟩
  | some counter =>
    obtain ⟨authorization, value⟩ := counter
    cases value with
    | none => exact .inr ⟨rfl, fun _ => rfl, fun _ _ _ _ => rfl⟩
    | some value =>
      cases origin with
      | none => exact .inr ⟨rfl, fun _ => rfl, fun h => absurd rfl h⟩
      | some counterOrigin => exact .inl ⟨authorization, value, counterOrigin, rfl, rfl⟩

variable {authorization : Bytes} {value counterOrigin : UInt64}

section

variable (h : s.Readable authorization value counterOrigin)
include h

theorem Image.Readable.generation_eq : s.generation = value - counterOrigin := by
  rw [Image.generation, h.counter, h.origin]

theorem Image.Readable.setWorld_eq (w : World) : s.setWorld w = { s with
      disk := { w.disk with counter := s.disk.counter }
      tpm := { s.tpm with
        counter := some ⟨authorization, some (counterOrigin + w.disk.counter)⟩ }
      store := w.store } := by
  have hTpm : setGeneration s.counterOrigin w.disk.counter s.tpm = { s.tpm with
      counter := some ⟨authorization, some (counterOrigin + w.disk.counter)⟩ } := by
    unfold setGeneration
    rw [h.counter, h.origin]
  rw [Image.setWorld, hTpm]

theorem Image.Readable.setWorld (w : World) :
    (s.setWorld w).Readable authorization (counterOrigin + w.disk.counter) counterOrigin := by
  rw [h.setWorld_eq]
  exact ⟨rfl, h.origin⟩

end

theorem setWorld_setWorld (w w' : World) (s : Image) :
    (s.setWorld w).setWorld w' = s.setWorld w' := by
  rcases readable_or_unreadable s with ⟨authorization, value, counterOrigin, h⟩ | h
  · rw [(h.setWorld w).setWorld_eq, h.setWorld_eq, h.setWorld_eq]
  · simp only [Image.setWorld, h.keeps]

theorem setWorld_world (s : Image) : s.setWorld s.world = s := by
  rcases readable_or_unreadable s with ⟨authorization, value, counterOrigin, h⟩ | h
  · have hValue : counterOrigin + s.world.disk.counter = value := by
      show counterOrigin + s.generation = value
      rw [h.generation_eq]
      rw [UInt64.add_comm, UInt64.sub_add_cancel]
    rw [h.setWorld_eq, hValue, ← h.counter]
    rfl
  · simp only [Image.setWorld, Image.world, h.keeps]

/-- What was put into the image is what the store finds there. -/
theorem world_setWorld {w : World} (h : s.Readable authorization value counterOrigin) :
    (s.setWorld w).world = w := by
  have hGeneration : (s.setWorld w).generation = w.disk.counter := by
    rw [(h.setWorld w).generation_eq]
    rw [UInt64.add_comm, UInt64.add_sub_cancel]
  rw [Image.world, hGeneration]
  rfl

theorem world_setWorld_unreadable {w : World} (h : s.Unreadable) (hCounter : w.disk.counter = 0) :
    (s.setWorld w).world = w := by
  have hGeneration : (s.setWorld w).generation = w.disk.counter := by
    have hTpm : (s.setWorld w).tpm = s.tpm := h.keeps _
    rw [hCounter, ← h.generation, Image.generation, Image.generation, hTpm]
    rfl
  rw [Image.world, hGeneration]
  rfl

/-- Two ends of a call that only differ in the text of an error, which the store does not look
at. -/
inductive Agree : ImageProc α × Image → ImageProc α × Image → Prop
  | done {a : α} {s s' : Image} (h : s = s') : Agree (.done a, s) (.done a, s')
  | fail {e e' : Exn} {s s' : Image} (h : s = s') : Agree (.fail e, s) (.fail e', s')

theorem generation_of_readGeneration {a : TpmAnswer} {generation : UInt64}
    (hOrigin : s.counterOrigin = some counterOrigin)
    (h : readGeneration authorization counterOrigin a s.tpm = .ok generation) :
    s.generation = generation := by
  obtain ⟨value, hRaw, h⟩ := bind_eq_ok.mp h
  obtain ⟨-, h⟩ := guard_eq_ok.mp h
  cases h
  have hCounter := (FapiStoreSecurity.readRawCounter_ok hRaw).1
  exact Image.Readable.generation_eq ⟨hCounter, hOrigin⟩

/-- What the store reads is what `FapiStoreSecurity::read` returns. -/
theorem readCounter_agrees (hOrigin : s.counterOrigin = some counterOrigin) (i : Turn) :
    Agree (run [i] (withStore authorization readCounter) s)
      (run [i, i] (withSecurity (FapiStoreSecurity.read authorization)) s) := by
  have hSecurity : run [i, i] (withSecurity (FapiStoreSecurity.read authorization)) s =
      (Proc.ofExcept (readGeneration authorization counterOrigin i.tpm s.tpm), s) := by
    obtain ⟨⟨disk, tpm, log⟩, ⟨store, origin⟩⟩ := s
    cases hOrigin
    show (embed _ _ _ (Proc.ofExcept _), _) = _
    rw [embed_ofExcept]
    rfl
  have hFails : (s.answer authorization i).fails .readCounter =
      !(readGeneration authorization counterOrigin i.tpm s.tpm).isOk := by
    rw [Image.answer, hOrigin]
    rfl
  unfold withStore readCounter Proc.observe
  rw [embed_atomically, run_atomically, hSecurity]
  cases hRead : readGeneration authorization counterOrigin i.tpm s.tpm with
  | error e =>
    rw [hRead] at hFails
    simp only [hFails]
    exact .fail (setWorld_world s)
  | ok generation =>
    rw [hRead] at hFails
    have hGeneration : s.world.disk.counter = generation :=
      generation_of_readGeneration hOrigin hRead
    simp only [hFails, hGeneration]
    exact .done (setWorld_world s)

variable {counterAuthorization : Bytes}

theorem Image.Readable.increment {tpm' : Tpm} {a : TpmAnswer}
    (h : s.Readable counterAuthorization value counterOrigin)
    (hEffect : incremented authorization a s.tpm = some tpm') :
    s.setWorld { s.world with disk.counter := s.generation + 1 } = { s with tpm := tpm' } := by
  obtain ⟨counter, hCounter, rfl, rfl⟩ := FapiStoreSecurity.incremented_eq hEffect
  obtain rfl := Option.some.inj (h.counter.symm.trans hCounter)
  have hValue : counterOrigin + (s.generation + 1) = value + 1 := by
    rw [h.generation_eq, ← UInt64.add_assoc, UInt64.add_comm counterOrigin, UInt64.sub_add_cancel]
  rw [h.setWorld_eq]
  simp only [hValue]
  rfl

/-- What the store does to the counter is what `FapiStoreSecurity::increment` does. -/
theorem incrementCounter_agrees (hReadable : s.Readable counterAuthorization value counterOrigin)
    (i : Turn) :
    Agree (run [i] (withStore authorization incrementCounter) s)
      (run [i] (withSecurity (FapiStoreSecurity.increment authorization)) s) := by
  have hOutcome : (s.answer authorization i).increment =
    incrementOutcome authorization i.tpm s.tpm := rfl
  unfold incrementOutcome at hOutcome
  unfold withStore incrementCounter withSecurity FapiStoreSecurity.increment
    FapiStoreSecurity.tssChange nvIncrement changeTpm
  rw [embed_atomically, embed_atomically, run_atomically, run_atomically]
  cases hEffect : incremented authorization i.tpm s.tpm with
  | none =>
    rw [hEffect] at hOutcome
    simp only [hOutcome]
    exact .fail (setWorld_world s)
  | some tpm' =>
    rw [hEffect] at hOutcome
    cases hCommand : i.tpm.outcome .nvIncrement with
    | succeeds =>
      rw [hCommand] at hOutcome
      simp only [hOutcome]
      exact .done (hReadable.increment hEffect)
    | failsWithoutEffect =>
      rw [hCommand] at hOutcome
      simp only [hOutcome]
      exact .fail (setWorld_world s)
    | failsAfterEffect =>
      rw [hCommand] at hOutcome
      simp only [hOutcome]
      exact .fail (hReadable.increment hEffect)

theorem Image.Unreadable.readCounter_fails {t : Image} (h : s.Unreadable)
    (hOrigin : s.counterOrigin ≠ none) (ht : t = s.setWorld t.world) (i : Turn) :
    (t.answer authorization i).fails .readCounter = true := by
  have hTpm : t.tpm = s.tpm := by
    rw [ht]
    exact h.keeps _
  rw [Image.answer]
  simp only [if_true, hTpm, h.fails hOrigin, Bool.not_false]

/-- A part of the store, run by the process that holds the lock. -/
theorem wp_withStore {p : StoreProc α} {admits : World → Answer → Prop} {G : World → Prop}
    {Q : α → World → Prop} {E : Exn → World → Prop}
    (h : wp (.among Service.nobody admits fun _ w => G w) Q E p s.world)
    (hAdmits : ∀ t i, t = s.setWorld t.world → admits t.world (t.answer authorization i))
    (hLaw : ∀ w, G w → (s.setWorld w).world = w) (hG : ∀ w, G w → OwnInv P pid log (s.setWorld w)) :
    wp (owning P pid log) (fun a s' => Q a s'.world ∧ s' = s.setWorld s'.world)
      (fun e s' => E e s'.world ∧ s' = s.setWorld s'.world) (withStore authorization p) s := by
  refine wp_embed (J := fun t => t = s.setWorld t.world) (fun t u hJ hRely => ?_)
    (fun t i hJ _ => hAdmits t i hJ) ?_ id (setWorld_world s).symm h
  · obtain rfl := Service.eq_of_nobody hRely
    exact ⟨.refl, hJ⟩
  · intro t w hJ hw
    rw [hJ, setWorld_setWorld, hLaw w hw]
    exact ⟨rfl, rfl, hG w hw⟩

end Parts

/-! ## Calls of the store -/

variable {P : Platform} {w : World}

/-- An operation does not remove the directory, wherever it is interrupted. -/
theorem directory_of_reaches {change : CredentialStore → Except Exn Storage} {w' : World}
    (h : CommitReaches P change w w') (hDirectory : w.disk.directory = true) :
    w'.disk.directory = true := by
  rcases h with hSame | ⟨m, -, hInstalled, -⟩
  · exact hSame.directory hDirectory
  · exact hInstalled.directory

theorem wp_load_uncounted {C : Setting World Answer} (hC : C.Keeps (LoadReaches P w))
    (hFile : w.disk.file = none) (hFails : ∀ w a, C.admits w a → a.fails .readCounter = true) :
    wp C (fun _ _ => False) (fun _ w' => LoadReaches P w w') (load P) w := by
  rw [load, bind_eq, wp_bind]
  refine wp_mono (wp_readStoreFile hC fun h => absurd hFile h) ?_ fun _ _ h => h.reaches
  rintro r w₁ ⟨hr, hReached, -, -⟩
  rw [hFile] at hr
  subst hr
  refine wp_bind.mpr (wp_keeps_observe hC hReached fun a ha =>
    ⟨fun n hn => ?_, fun _ _ => hReached⟩)
  rw [hFails w₁ a ha, if_pos rfl] at hn
  cases hn

/-- What a load finds: a store that fits together, or no store and nothing acknowledged. -/
theorem loaded_absent {w' : World} {h : History} (hFile : w.disk.file = none) (hLast : h.last = {})
    (hReached : LoadReaches P w w') (hLoaded : Loaded P w w') :
    ReadyInv P w' { last := w'.store } ∧ Recovered h w'.store.stored := by
  cases hLoaded with
  | absent _ _ hCounter hStore =>
    have hFile' := hReached.file.trans hFile
    refine ⟨⟨⟨.absent hFile' hCounter hStore, ?_, ?_, fun h => absurd hFile' h⟩, rfl, rfl⟩, .inl ?_⟩
    · rw [hStore]
      exact Storage.valid_empty
    · rw [hStore]
    · rw [hStore, hLast]
  | present hSome =>
    rw [hFile] at hSome
    cases hSome

section Calls

variable {P : Bytes → Platform} {pid : Nat} {log : List Event} {s : Image}
  {authorization key : Bytes}

/-- The process has unsealed this key and the origin of the counter. -/
structure Unsealed (P : Bytes → Platform) (pid : Nat) (log : List Event) (key : Bytes) (s : Image) :
    Prop where
  inv : OwnInv P pid log s
  opens : ∃ counterOrigin, s.counterOrigin = some counterOrigin ∧ Opens s.tpm key counterOrigin

/-- The process has loaded the store. -/
structure Serving (P : Bytes → Platform) (pid : Nat) (log : List Event) (key : Bytes) (s : Image) :
    Prop where
  inv : OwnInv P pid log s
  readable : ∃ counterAuthorization value counterOrigin,
    s.Readable counterAuthorization value counterOrigin ∧ Opens s.tpm key counterOrigin
  ready : ReadyInv (P key) s.world (historyOf s.log)

theorem sealed_setWorld (w : World) (s : Image) : (s.setWorld w).tpm.sealed = s.tpm.sealed := by
  rcases readable_or_unreadable s with ⟨_, _, _, h⟩ | h
  · rw [h.setWorld_eq]
  · exact congrArg Tpm.sealed (h.keeps w.disk.counter)

variable {counterOrigin value : UInt64} {w : World} {counterAuthorization : Bytes}
  {before : List Event}

theorem opens_setWorld (h : Opens s.tpm key counterOrigin) :
    Opens (s.setWorld w).tpm key counterOrigin := by
  obtain ⟨object, hObject, hOpen⟩ := h
  exact ⟨object, (sealed_setWorld w s).trans hObject, hOpen⟩

theorem counter_setWorld (h : s.tpm.counter ≠ none) : (s.setWorld w).tpm.counter ≠ none := by
  rcases readable_or_unreadable s with ⟨_, _, _, hReadable⟩ | hUnreadable
  · rw [hReadable.setWorld_eq]
    exact Option.some_ne_none _
  · have hSame : (s.setWorld w).tpm = s.tpm := hUnreadable.keeps _
    rw [hSame]
    exact h

theorem LogInv.setWorld (h : LogInv s.tpm log) : LogInv (s.setWorld w).tpm log :=
  h.tpm (fun _ hObject => (sealed_setWorld w s).trans hObject) counter_setWorld

/-- A step of the store keeps the rest of the invariant. -/
theorem OwnInv.setWorld (h : OwnInv P pid log s) (hCondition : Condition P (s.setWorld w).toShared)
    (hDirectory : w.disk.directory = true) :
    OwnInv P pid log (s.setWorld w) where
  shared := ⟨hCondition, h.shared.log.setWorld⟩
  directory := hDirectory
  own := h.own

theorem condition_setWorld (hReadable : s.Readable counterAuthorization value counterOrigin)
    (hOpens : Opens s.tpm key counterOrigin) (hStore : StoreInv (P key) w (historyOf s.log)) :
    Condition P (s.setWorld w).toShared := by
  refine .used (hReadable.setWorld w).counter (opens_setWorld hOpens) ?_
  have hCounter : counterOrigin + w.disk.counter - counterOrigin = w.disk.counter := by
    rw [UInt64.add_comm, UInt64.add_sub_cancel]
  rw [hCounter]
  exact hStore.restart

theorem storeInv_of_condition {h : History}
    (hReadable : s.Readable counterAuthorization value counterOrigin)
    (hStore : StoreInv (P key) ⟨{ s.disk with counter := value - counterOrigin }, {}⟩ h) :
    StoreInv (P key) s.world h := by
  have hDisk : s.world.disk = { s.disk with counter := value - counterOrigin } := by
    rw [← hReadable.generation_eq]
    rfl
  exact ⟨hDisk ▸ hStore.durable, hStore.valid, hStore.ready, hDisk ▸ hStore.directory⟩

variable (hOld : ∀ e ∈ log, e.pid ≠ pid)
include hOld

theorem Serving.returned {call : Call} (h : OwnInv P pid log s)
    (hBegan : s.log = before ++ [.began pid call])
    (hReadable : s.Readable counterAuthorization value counterOrigin)
    (hOpens : Opens s.tpm key counterOrigin) (hReady : ReadyInv (P key) w { last := w.store })
    (hDirectory : w.disk.directory = true) (hJustified : Justified (historyOf before) call w.store)
    {s' : Image} (hs' : s' = s.setWorld w) :
    Serving P pid log key { s' with log := s'.log ++ [.returned pid call s'.store] } := by
  subst hs'
  have hHistory : historyOf (s.log ++ [.returned pid call w.store]) = { last := w.store } :=
    historyOf_append _ _
  have hSequential : Sequential (s.log ++ [.returned pid call w.store]) := by
    have hSequential := h.shared.log.sequential
    rw [hBegan] at hSequential ⊢
    exact hSequential.append_returned hJustified
  -- The image after the event, as one that the store has written.
  have hReadable' : ({ s with log := s.log ++ [.returned pid call w.store] } : Image).Readable
      counterAuthorization value counterOrigin := ⟨hReadable.counter, hReadable.origin⟩
  refine ⟨⟨⟨?_, h.shared.log.setWorld.append hSequential (h.serial_append hOld rfl)
    (fun _ _ => Event.noConfusion) (fun _ => Event.noConfusion)⟩, hDirectory, h.own_append rfl⟩,
    ⟨_, _, _, hReadable'.setWorld w, opens_setWorld hOpens⟩, ?_⟩
  · refine condition_setWorld hReadable' hOpens ?_
    rw [hHistory]
    exact hReady.inv
  · have hWorld := world_setWorld (w := w) hReadable'
    rw [← hHistory, ← hWorld] at hReady
    exact hReady

theorem wp_update_began {op : Operation} (hP : ∀ key, (P key).Lawful) (h : OwnInv P pid log s)
    (hLog : s.log = before ++ [.began pid (.update op)])
    (hReadable : s.Readable counterAuthorization value counterOrigin)
    (hOpens : Opens s.tpm key counterOrigin)
    (hReady : ReadyInv (P key) s.world (historyOf before)) :
    wp (owning P pid log) (fun _ => Serving P pid log key) (fun _ => Serving P pid log key) (do
      withStore authorization ((Call.update op).run (P key))
      record fun s => .returned pid (.update op) s.store) s := by
  have hHistory : historyOf s.log = (historyOf before).interrupted (.update op) := by
    rw [hLog]
    exact historyOf_append _ _
  have hKept {w : World} (hStore : StoreInv (P key) w (historyOf s.log))
      (hDirectory : w.disk.directory = true) : OwnInv P pid log (s.setWorld w) :=
    h.setWorld (condition_setWorld hReadable hOpens hStore) hDirectory
  have hDirectory : s.world.disk.directory = true := h.directory
  have hValid : ∀ m, op.change s.world.store = .ok m → m.Valid :=
    fun m hm => Operation.change_valid (hReady.stored ▸ hReady.inv.valid) hm
  have hRun := wp_commit (C := .among Service.nobody (fun _ _ => True) fun _ w' =>
    CommitReaches (P key) op.change s.world w') (hP key) hValid Service.keeps_nobody
  rw [← Operation.run_eq] at hRun
  refine wp_seq (wp_withStore hRun (fun _ _ _ => trivial)
    (fun w _ => world_setWorld hReadable) ?_) ?_ ?_
  · intro w hReached
    refine hKept ?_ (directory_of_reaches hReached hDirectory)
    rw [hHistory]
    exact hReady.reaches hReached
  · rintro _ s' ⟨⟨m, hChange, hCommitted⟩, hs'⟩
    have hStore : s.world.store = (historyOf before).last :=
      hReady.store_eq hCommitted.installed.startable.ready
    have hJustified : Justified (historyOf before) (.update op) s'.world.store := by
      show op.change (historyOf before).last = .ok s'.world.store.stored
      rw [hCommitted.store, ← hStore]
      exact hChange
    have hServing := Serving.returned hOld h hLog hReadable hOpens
      (hReady.committed hChange hCommitted) hCommitted.installed.directory hJustified hs'
    exact wp_record hServing.inv hServing
  · rintro _ s' ⟨hFails, hs'⟩
    have hReady' : ReadyInv (P key) s'.world (historyOf s.log) := hHistory ▸ hReady.failed hFails
    have hDirectory' := directory_of_reaches hFails.reaches hDirectory
    have hLog' : s'.log = s.log := by rw [hs']; rfl
    refine ⟨?_, ?_, ?_⟩
    · rw [hs']
      exact hKept hReady'.inv hDirectory'
    · rw [hs']
      exact ⟨_, _, _, hReadable.setWorld _, opens_setWorld hOpens⟩
    · rw [hLog']
      exact hReady'

/-- **Operations.** Under the lock an operation of a loaded store leaves it loaded, and whether it
returns or throws, the log and the store fit together at every step. -/
theorem wp_update (hP : ∀ key, (P key).Lawful) (h : Serving P pid log key s) (op : Operation) :
    wp (owning P pid log) (fun _ => Serving P pid log key) (fun _ => Serving P pid log key)
      (storeCall P pid authorization key (.update op)) s := by
  obtain ⟨counterAuthorization, value, counterOrigin, hReadable, hOpens⟩ := h.readable
  exact wp_bind.mpr (wp_record (h.inv.began hOld (.update op)) (wp_update_began hOld hP
    (h.inv.began hOld (.update op)) rfl ⟨hReadable.counter, hReadable.origin⟩ hOpens h.ready))

/-- A load with a counter that can be read. -/
theorem wp_load_readable (h : OwnInv P pid log s) (hLog : s.log = before ++ [.began pid .load])
    (hReadable : s.Readable counterAuthorization value counterOrigin)
    (hOpens : Opens s.tpm key counterOrigin)
    (hDirectory : s.world.disk.file ≠ none → s.world.disk.directory = true)
    (hKept : ∀ w, LoadReaches (P key) s.world w → OwnInv P pid log (s.setWorld w))
    (hLoads : ∀ w, LoadReaches (P key) s.world w → Loaded (P key) s.world w →
      ReadyInv (P key) w { last := w.store } ∧ Recovered (historyOf s.log) w.store.stored) :
    wp (owning P pid log) (fun _ => Serving P pid log key) (fun _ => OwnInv P pid log) (do
      withStore authorization (Call.load.run (P key))
      record fun s => .returned pid .load s.store) s := by
  have hHistory : historyOf s.log = historyOf before := by
    rw [hLog]
    exact historyOf_append _ _
  have hRun := wp_load (C := .among Service.nobody (fun _ _ => True) fun _ w' =>
    LoadReaches (P key) s.world w') Service.keeps_nobody hDirectory
  refine wp_seq (wp_withStore hRun (fun _ _ _ => trivial)
    (fun w _ => world_setWorld hReadable) hKept) ?_ ?_
  · rintro _ s' ⟨⟨hReached, hLoaded⟩, hs'⟩
    obtain ⟨hReady, hRecovered⟩ := hLoads _ hReached hLoaded
    have hServing := Serving.returned hOld h hLog hReadable hOpens hReady
      (hReached.directory.trans h.directory) (hHistory ▸ hRecovered) hs'
    exact wp_record hServing.inv hServing
  · rintro _ s' ⟨hFails, hs'⟩
    rw [hs']
    exact hKept _ hFails.reaches

theorem wp_load_unused (h : OwnInv P pid log s) (hLog : s.log = before ++ [.began pid .load])
    (hOrigin : s.counterOrigin = some counterOrigin) (hOpens : Opens s.tpm key counterOrigin)
    (hFile : s.disk.file = none) (hLast : (historyOf s.log).last = {}) :
    wp (owning P pid log) (fun _ => Serving P pid log key) (fun _ => OwnInv P pid log) (do
      withStore authorization (Call.load.run (P key))
      record fun s => .returned pid .load s.store) s := by
  have hKept (w : World) (hReached : LoadReaches (P key) s.world w) :
      OwnInv P pid log (s.setWorld w) :=
    h.setWorld (.unused (hReached.file.trans hFile) hLast) (hReached.directory.trans h.directory)
  have hFile' : s.world.disk.file = none := hFile
  rcases readable_or_unreadable s with ⟨counterAuthorization, value, _, hReadable⟩ | hUnreadable
  · obtain rfl := Option.some.inj (hReadable.origin.symm.trans hOrigin)
    exact wp_load_readable hOld h hLog hReadable hOpens (fun h => absurd hFile' h) hKept
      fun _ => loaded_absent hFile' hLast
  · -- The counter cannot be read, so that the load does not return.
    have hRun := wp_load_uncounted (C := .among Service.nobody
      (fun _ a => a.fails .readCounter = true) fun _ w' => LoadReaches (P key) s.world w')
      Service.keeps_nobody hFile' fun _ _ h => h
    refine wp_seq (wp_withStore hRun ?_ ?_ hKept) (fun _ _ h => h.1.elim) ?_
    · intro t i ht
      exact hUnreadable.readCounter_fails (hOrigin ▸ Option.some_ne_none _) ht i
    · intro w hReached
      refine world_setWorld_unreadable hUnreadable ?_
      rcases hReached.counter with hSame | ⟨⟨_, _, hSome, _⟩, _⟩
      · exact hSame.trans hUnreadable.generation
      · rw [hFile'] at hSome
        cases hSome
    · rintro _ s' ⟨hReached, hs'⟩
      rw [hs']
      exact hKept _ hReached

/-- **Loads.** Under the lock a load yields what was acknowledged, or what an interrupted operation
would have left; a load that throws leaves the invariant. -/
theorem wp_load_store (h : Unsealed P pid log key s) :
    wp (owning P pid log) (fun _ => Serving P pid log key) (fun _ => OwnInv P pid log)
      (storeCall P pid authorization key .load) s := by
  obtain ⟨counterOrigin, hOrigin, hOpens⟩ := h.opens
  refine wp_bind.mpr (wp_record (h.inv.began hOld .load) ?_)
  have hBegan := h.inv.began hOld .load
  cases hBegan.shared.condition with
  | unused hFile hLast => exact wp_load_unused hOld hBegan rfl hOrigin hOpens hFile hLast
  | used hCounter hOpens' hStore =>
    obtain ⟨rfl, rfl⟩ := hOpens.unique hOpens'
    have hReadable : Image.Readable _ _ _ _ := ⟨hCounter, hOrigin⟩
    have hStore := storeInv_of_condition hReadable hStore
    exact wp_load_readable hOld hBegan rfl hReadable hOpens hStore.directory
      (fun _ hReached => hBegan.setWorld
        (condition_setWorld hReadable hOpens (hStore.reaches hReached))
        (hReached.directory.trans hBegan.directory))
      fun _ hReached hLoaded => ⟨hStore.loaded hReached hLoaded, hStore.durable.recovered hLoaded⟩

end Calls

/-! ## What programs do under the lock -/

theorem moves_tssCheck {command : TpmCommand} {operation : String} :
    Moves (fun s s' => s' = s) (FapiStoreSecurity.tssCheck command operation) :=
  moves_atomically fun _ _ => rfl

theorem moves_construct (authorization : Bytes) :
    Moves (fun s s' => s' = s) (FapiStoreSecurity.construct authorization) :=
  moves_bind (moves_ofExcept _) fun _ => moves_bind moves_tssCheck fun _ => moves_tssCheck

theorem moves_withSecurity {α : Type} {p : SecurityProc α} (hp : Moves (fun s s' => s' = s) p) :
    Moves (fun s s' => s' = s) (withSecurity p) :=
  moves_embed hp fun _ => rfl

section Under

variable {P : Bytes → Platform} {pid : Nat} {log : List Event} {s : Image}
  {authorization : Bytes} {α : Type}

/-- Steps that change nothing keep what holds under the lock. -/
theorem maintains_reads {p : ImageProc α} {J : Image → Prop} (hp : Moves (fun s s' => s' = s) p)
    (hJ : ∀ s, J s → OwnInv P pid log s) : Maintains (owning P pid log) J p :=
  maintains_of_moves hp (tolerates_among fun _ _ h => h.elim) hJ trivial

theorem OwnInv.setSecurity {x : Security} (h : OwnInv P pid log s) (hTpm : x.tpm = s.tpm) :
    OwnInv P pid log (s.setSecurity x) := by
  have hShared : (s.setSecurity x).toShared = s.toShared := by
    rw [Image.setSecurity, hTpm]
  exact ⟨hShared ▸ h.shared, h.directory, h.own⟩

/-- Provisioning keeps the invariant at every step: a store in use has a counter, and then it
changes nothing. -/
theorem OwnInv.provisions {x : Security} (h : OwnInv P pid log s)
    (hProvisions : Provisions s.tpm x.tpm) : OwnInv P pid log (s.setSecurity x) := by
  cases h.shared.condition with
  | used hCounter =>
    exact h.setSecurity (hProvisions.existing (hCounter ▸ Option.some_ne_none _))
  | unused hFile hLast =>
    refine ⟨⟨.unused hFile hLast, h.shared.log.tpm hProvisions.sealed fun hCounter => ?_⟩,
      h.directory, h.own⟩
    show x.tpm.counter ≠ none
    rw [hProvisions.existing hCounter]
    exact hCounter

variable (hOld : ∀ e ∈ log, e.pid ≠ pid)
include hOld

theorem wp_unseal (h : OwnInv P pid log s) :
    wp (owning P pid log) (fun key => Unsealed P pid log key) (fun _ => OwnInv P pid log)
      (unsealKey pid authorization) s := by
  have hRun := FapiStoreSecurity.wp_unsealKey authorization (C := .among Service.nobody
    (fun _ _ => True) fun _ x => x.tpm = s.tpm) (s := ⟨s.tpm, s.counterOrigin⟩)
    Service.keeps_nobody rfl
  refine wp_seq (wp_withSecurity hRun fun x hx => h.setSecurity hx) ?_ ?_
  · rintro key _ ⟨x, ⟨hTpm, a, counterOrigin, hUnseal, hOrigin⟩, rfl⟩
    have hOpens : Opens (s.setSecurity x).tpm key counterOrigin := by
      obtain ⟨object, hObject, -, hOpen⟩ := FapiStoreSecurity.unsealObject_ok hUnseal
      exact ⟨object, (congrArg Tpm.sealed hTpm).trans hObject, hOpen⟩
    have hInv := (h.setSecurity hTpm).unsealed hOld hOpens
    exact wp_bind.mpr (wp_record hInv ⟨hInv, counterOrigin, hOrigin, hOpens⟩)
  · rintro _ _ ⟨x, ⟨hTpm, -⟩, rfl⟩
    exact h.setSecurity hTpm

theorem wp_useStore {beforeStore : ImageProc Unit} {rest : Bytes → ImageProc α}
    (hBefore : Moves (fun s s' => s' = s) beforeStore)
    (hRest : ∀ key s, Serving P pid log key s →
      wp (owning P pid log) (fun _ => OwnInv P pid log) (fun _ => OwnInv P pid log) (rest key) s)
    (h : OwnInv P pid log s) :
    wp (owning P pid log) (fun _ => OwnInv P pid log) (fun _ => OwnInv P pid log)
      (useStore P pid authorization beforeStore rest) s := by
  refine wp_seq (wp_unseal hOld h) ?_ fun _ _ h => h
  intro key s hUnsealed
  refine wp_seq (maintains_reads hBefore (fun _ h => h.inv) s hUnsealed) ?_ fun _ _ h => h.inv
  intro _ s hUnsealed
  refine wp_bind.mpr (wp_ofExcept.mpr ⟨fun _ _ => ?_, fun _ _ => hUnsealed.inv⟩)
  exact wp_seq (wp_load_store hOld hUnsealed)
    (fun _ s hServing => hRest key s hServing) fun _ _ h => h

theorem maintains_serveRequests (hP : ∀ key, (P key).Lawful) (key : Bytes) (rounds : Nat) :
    Maintains (owning P pid log) (Serving P pid log key)
      (serveRequests P pid authorization key rounds) := by
  refine maintains_loop trivial (fun _ s hServing => ?_) rounds ()
  refine wp_bind.mpr (wp_keeps_observe Service.keeps_nobody hServing.inv fun i _ =>
    ⟨fun request _ => ?_, fun _ he => (by cases he)⟩)
  cases request with
  | none => exact hServing
  | some op =>
    exact wp_bind.mpr (wp_attempt.mpr (wp_mono (wp_update hOld hP hServing op)
      (fun _ _ h => h) fun _ _ h => h))

theorem wp_provisionObjects (h : OwnInv P pid log s) :
    wp (owning P pid log) (fun _ => OwnInv P pid log) (fun _ => OwnInv P pid log)
      (provisionObjects pid authorization) s := by
  refine wp_seq (maintains_reads (moves_withSecurity (moves_construct _))
    (fun _ h => h) s h) ?_ fun _ _ h => h
  intro _ s h
  have hRun := FapiStoreSecurity.wp_provision authorization (C := .among Service.nobody
    (fun _ _ => True) fun _ x => Provisions s.tpm x.tpm) (s := ⟨s.tpm, s.counterOrigin⟩)
    Service.keeps_nobody fun _ _ => id
  refine wp_seq (wp_withSecurity hRun fun x hx => h.provisions hx) ?_ ?_
  · rintro _ _ ⟨x, ⟨hUnprovisioned, key, counterOrigin, -, -, hTpm⟩, rfl⟩
    have hCounter : x.tpm.counter ≠ none := by
      rw [hTpm]
      exact Option.some_ne_none _
    have hBlank : s.tpm = {} := hUnprovisioned
    have hFirst (pid' : Nat) (hMem : .provisioned pid' ∈ s.log) : False :=
      h.shared.log.provisioned pid' hMem (congrArg Tpm.counter hBlank)
    have hProvisions : Provisions s.tpm x.tpm := hBlank ▸ .blank x.tpm
    have hInv := (h.provisions hProvisions).provisioned hOld hCounter hFirst
    exact wp_bind.mpr (wp_record hInv hInv)
  · rintro _ _ ⟨x, hThrows, rfl⟩
    exact h.provisions hThrows.provisions

end Under

end VAuth.System
