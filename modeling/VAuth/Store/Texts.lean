import VAuth.Store.Representation
import VAuth.Store.Serialization
import VAuth.Store.Size

/-!
# Text in the store

`nlohmann::json` keeps text that is not UTF-8 out of a document in both directions: `parse` gives
no such string, and `dump` refuses it. So the text fields of a store in memory are UTF-8 in every
run, although `put` does not look at them.
-/

namespace VAuth.Store

open Proc

/-! ## Strings of a document -/

/-- Every string of the document is UTF-8. -/
def Json.AllUtf8 (json : Json) : Prop := ∀ s, json.Contains s → Utf8 s

/-- `parse` refuses text that is not UTF-8. -/
def Platform.ParsesUtf8 (P : Platform) : Prop :=
  ∀ text json, P.parse text = some json → json.AllUtf8

/-- `dump` refuses strings that are not UTF-8. -/
def Platform.DumpsUtf8 (P : Platform) : Prop :=
  ∀ json text, P.dump json = some text → json.AllUtf8

variable {m : Storage} {c : StoredCredential} {items : List (Bytes × StoredCredential)}

theorem parseEntry_textual {entry : Json} (hUtf8 : entry.AllUtf8) (h : parseEntry entry = .ok c) :
    c.Textual := by
  obtain ⟨-, hRp, hName, hDisplay⟩ := parseEntry_ok h
  exact ⟨hUtf8 _ hRp, hUtf8 _ hName, hUtf8 _ hDisplay⟩

theorem Storage.textual_empty : Storage.Textual {} := by
  intro k c hc
  rw [Std.ExtTreeMap.getElem?_empty] at hc
  cases hc

theorem Storage.Textual.insert (hm : m.Textual) {k : Bytes} (hc : c.Textual) :
    Storage.Textual (m.insert k c) := by
  intro k' c' hEntry
  rw [Std.ExtTreeMap.getElem?_insert] at hEntry
  split at hEntry
  · cases hEntry
    exact hc
  · exact hm k' c' hEntry

theorem parseEntries_textual {entries : List Json} {loaded : Storage} (hLoaded : loaded.Textual)
    (hUtf8 : ∀ entry ∈ entries, entry.AllUtf8) (h : parseEntries loaded entries = .ok m) :
    m.Textual := by
  induction entries generalizing loaded with
  | nil =>
    cases h
    exact hLoaded
  | cons entry entries ih =>
    obtain ⟨c, hEntry, h⟩ := bind_eq_ok.mp h
    obtain ⟨-, h⟩ := guard_eq_ok.mp h
    have hc := parseEntry_textual (hUtf8 entry List.mem_cons_self) hEntry
    exact ih (hLoaded.insert hc) (fun e he => hUtf8 e (List.mem_cons_of_mem _ he)) h

theorem parseStorage_textual {json : Json} (hUtf8 : json.AllUtf8) (h : parseStorage json = .ok m) :
    m.Textual := by
  cases json with
  | arr entries =>
    by_cases hSize : entries.length > maxCredentials
    · simp [parseStorage, hSize] at h
    · simp only [parseStorage, if_neg hSize] at h
      exact parseEntries_textual Storage.textual_empty
        (fun entry hEntry s hs => hUtf8 s (.element hEntry hs)) h
  | _ => cases h

variable {P : Platform} {w w' : World} {h : History}

/-- What is read out of an envelope is UTF-8. -/
theorem Seals.textual (hParse : P.ParsesUtf8) {e : Bytes} {g : UInt64} (h : Seals P e g m) :
    m.Textual := by
  obtain ⟨text, -, hStorage⟩ := h
  unfold parsePlaintext at hStorage
  split at hStorage
  · cases hStorage
  · rename_i json hJson
    exact parseStorage_textual (hParse text json hJson) hStorage

/-! ## Every run -/

theorem Loaded.textual (hParse : P.ParsesUtf8) (hLoaded : Loaded P w w') :
    w'.store.stored.Textual := by
  cases hLoaded with
  | absent _ _ _ hStore =>
    rw [hStore]
    exact Storage.textual_empty
  | present _ hSeals _ _ hStore =>
    rw [hStore]
    exact hSeals.textual hParse

theorem Committed.textual (hParse : P.ParsesUtf8) (hCommitted : Committed P m w w') :
    w'.store.stored.Textual := by
  obtain ⟨e, -, -, hSeals⟩ := hCommitted.installed.file
  rw [hCommitted.store]
  exact hSeals.textual hParse

/-- **The text in memory is UTF-8**, in every run of the store. -/
theorem textual_of_steps (hP : P.Lawful) (hParse : P.ParsesUtf8) {admits : World → Answer → Prop}
    (hRun : Service.Steps (storeService P) Service.nobody admits fresh ⟨.ready, w, h⟩) :
    w.store.stored.Textual := by
  have hInvariant := storeService_memory (J := fun m _ => m.Textual) hP
    (fun _ _ _ _ _ hLoaded => hLoaded.textual hParse)
    (fun _ _ _ _ _ _ hCommitted => hCommitted.textual hParse) admits
  obtain ⟨hReady, hTextual⟩ : ReadyInv P w h ∧ h.last.stored.Textual :=
    hInvariant.holds (c := fresh) ⟨fresh_holds, Storage.textual_empty⟩ hRun
  rw [hReady.stored]
  exact hTextual

/-! ## A platform that keeps to UTF-8 -/

theorem Utf8.append {a b : Bytes} (ha : Utf8 a) (hb : Utf8 b) : Utf8 (a ++ b) := by
  obtain ⟨chars, rfl⟩ := ha
  obtain ⟨chars', rfl⟩ := hb
  exact ⟨chars ++ chars', List.flatMap_append.symm⟩

theorem utf8_ascii {bytes : Bytes} (h : ∀ b ∈ bytes, b.toNat < 128) : Utf8 bytes := by
  have hSingle : ∀ n < 128, [UInt8.ofNat n] = String.utf8EncodeChar (Char.ofNat n) := by decide
  induction bytes with
  | nil => exact ⟨[], rfl⟩
  | cons b bytes ih =>
    have hb := hSingle b.toNat (h b List.mem_cons_self)
    rw [UInt8.ofNat_toNat] at hb
    have hHead : Utf8 [b] := ⟨[Char.ofNat b.toNat], by rw [hb, List.flatMap_singleton]⟩
    exact hHead.append (ih fun c hc => h c (List.mem_cons_of_mem _ hc))

theorem utf8EncodeChar_lt {c : Char} {b : UInt8} (h : b ∈ String.utf8EncodeChar c) :
    b.toNat < 248 := by
  simp only [String.utf8EncodeChar] at h
  split_ifs at h <;> simp only [List.mem_cons, List.not_mem_nil, or_false] at h
  · rw [h, UInt8.toNat_ofNat']
    omega
  · rcases h with rfl | rfl <;> rw [UInt8.toNat_ofNat'] <;> omega
  · rcases h with rfl | rfl | rfl <;> rw [UInt8.toNat_ofNat'] <;> omega
  · rcases h with rfl | rfl | rfl | rfl <;> rw [UInt8.toNat_ofNat'] <;> omega

theorem Utf8.byte_lt {bytes : Bytes} (h : Utf8 bytes) {b : UInt8} (hb : b ∈ bytes) :
    b.toNat < 248 := by
  obtain ⟨chars, rfl⟩ := h
  obtain ⟨c, -, hc⟩ := List.mem_flatMap.mp hb
  exact utf8EncodeChar_lt hc

theorem utf8_hexEncode (bytes : Bytes) : Utf8 (hexEncode bytes) := by
  have hDigit (n : UInt8) (hn : n < 16) : (hexDigit n).toNat < 128 := by
    have key : ∀ b : BitVec 8, UInt8.ofBitVec b < 16 →
        (hexDigit (UInt8.ofBitVec b)).toNat < 128 := by decide
    exact key n.toBitVec hn
  refine utf8_ascii fun b hb => ?_
  obtain ⟨c, -, hc⟩ := List.mem_flatMap.mp hb
  rcases List.mem_pair.mp hc with rfl | rfl
  · exact hDigit _ (shiftRight_four_lt c)
  · exact hDigit _ (and_fifteen_lt c)

/-- The fields that hold texts, and those that do not. -/
theorem allUtf8_str {s : Bytes} (h : Utf8 s) : (Json.str s).AllUtf8 := by
  intro _ hs
  cases hs
  exact h

theorem allUtf8_num (n : Int) : (Json.num n).AllUtf8 := nofun

theorem allUtf8_bool (b : Bool) : (Json.bool b).AllUtf8 := nofun

theorem allUtf8_byteArray (bytes : Bytes) : (byteArray bytes).AllUtf8 := by
  intro s hs
  cases hs with
  | element h hs =>
    obtain ⟨b, -, rfl⟩ := List.mem_map.mp h
    exact allUtf8_num _ s hs

theorem allUtf8_credentialDocument (hc : c.Textual) : (credentialDocument c).AllUtf8 := by
  intro s hs
  cases hs with
  | member h hs =>
    simp only [List.mem_cons, List.not_mem_nil, or_false, Prod.mk.injEq] at h
    rcases h with ⟨-, rfl⟩ | ⟨-, rfl⟩ | ⟨-, rfl⟩ | ⟨-, rfl⟩ | ⟨-, rfl⟩ | ⟨-, rfl⟩ | ⟨-, rfl⟩ |
      ⟨-, rfl⟩ | ⟨-, rfl⟩ | ⟨-, rfl⟩ | ⟨-, rfl⟩ | ⟨-, rfl⟩
    · exact allUtf8_num _ s hs
    · exact allUtf8_num _ s hs
    · exact allUtf8_bool _ s hs
    · exact allUtf8_str (utf8_hexEncode _) s hs
    · exact allUtf8_num _ s hs
    · exact allUtf8_byteArray _ s hs
    · exact allUtf8_byteArray _ s hs
    · exact allUtf8_str hc.rpId s hs
    · exact allUtf8_num _ s hs
    · exact allUtf8_str hc.userDisplayName s hs
    · exact allUtf8_str (utf8_hexEncode _) s hs
    · exact allUtf8_str hc.userName s hs

theorem textual_of_dump (hDumps : P.DumpsUtf8) {text : Bytes}
    (hDump : P.dump (storageDocument items) = some text) {item : Bytes × StoredCredential}
    (hItem : item ∈ items) : item.2.Textual := by
  have hUtf8 : ∀ key s, (key, Json.str s) ∈ _ → Utf8 s := fun key s hMember =>
    hDumps _ _ hDump s (.element (List.mem_map.mpr ⟨item, hItem, rfl⟩) (.member (h := hMember) .str))
  exact ⟨hUtf8 "rpId" _ (by simp), hUtf8 "userName" _ (by simp),
    hUtf8 "userDisplayName" _ (by simp)⟩

theorem allUtf8_storageDocument (h : ∀ item ∈ items, item.2.Textual) :
    (storageDocument items).AllUtf8 := by
  intro s hs
  cases hs with
  | element hEntry hs =>
    obtain ⟨item, hItem, rfl⟩ := List.mem_map.mp hEntry
    exact allUtf8_credentialDocument (h item hItem) s hs

open Classical in
/-- The platform of compact texts, which refuses strings that are not UTF-8. -/
noncomputable def utf8Platform : Platform :=
  { renderPlatform with
    dump := fun json => if json.AllUtf8 then some json.render else none
    parse := fun text => (renderPlatform.parse text).filter fun json => json.AllUtf8 }

theorem utf8Platform_dumpsUtf8 : utf8Platform.DumpsUtf8 := by
  intro json text hDump
  by_contra hOther
  cases (if_neg hOther).symm.trans hDump

theorem utf8Platform_parsesUtf8 : utf8Platform.ParsesUtf8 := by
  intro text json hParse
  exact @of_decide_eq_true _ (Classical.propDecidable _) (Option.filter_eq_some_iff.mp hParse).2

theorem utf8Platform_dumpsCompact : utf8Platform.DumpsCompact := by
  intro items text hDump
  have hUtf8 := utf8Platform_dumpsUtf8 _ _ hDump
  exact Option.some.inj (hDump.symm.trans (if_pos hUtf8))

theorem utf8Platform_dumpsText : utf8Platform.DumpsText :=
  fun _ h => ⟨_, if_pos (allUtf8_storageDocument h)⟩

theorem utf8Platform_lawful : utf8Platform.Lawful where
  iterate_perm := renderPlatform_lawful.iterate_perm
  parse_dump := by
    intro items text hDump
    have hUtf8 := utf8Platform_dumpsUtf8 _ _ hDump
    have hText : renderPlatform.dump (storageDocument items) = some text :=
      (if_pos hUtf8).symm.trans hDump
    exact Option.filter_eq_some_iff.mpr ⟨renderPlatform_lawful.parse_dump items text hText,
      @decide_eq_true _ (Classical.propDecidable _) hUtf8⟩
  decipher_encipher := renderPlatform_lawful.decipher_encipher
  cipher_length := renderPlatform_lawful.cipher_length
  tag_length := renderPlatform_lawful.tag_length

end VAuth.Store
