import VAuth.Store.Commit
import VAuth.Store.Rendering
import VAuth.Store.Runs

/-!
# Writing the store and reading it back

What `save_storage` writes for a valid map, `parse_storage` reads back as that map, and whatever
`parse_storage` accepts is a valid map. The envelope around it carries every plaintext that
OpenSSL can take in one call.
-/

namespace VAuth.Store

open Json

/-! ## What is read is valid -/

/-- The string occurs as a value in the document. -/
inductive Json.Contains (s : Bytes) : Json → Prop
  | str : Contains s (.str s)
  | element {e : Json} {elements : List Json} (h : e ∈ elements) (hs : Contains s e) :
      Contains s (.arr elements)
  | member {e : Json} {name : String} {members : List (String × Json)} (h : (name, e) ∈ members)
      (hs : Contains s e) : Contains s (.obj members)

theorem contains_of_field {entry value : Json} {name : String} {s : Bytes}
    (hField : entry.field name = .ok value) (hString : value.getString = .ok s) :
    entry.Contains s := by
  cases value with
  | str t =>
    cases hString
    cases entry with
    | obj members =>
      cases hLookup : members.lookup name with
      | none =>
        simp only [Json.field, hLookup] at hField
        cases hField
      | some found =>
        simp only [Json.field, hLookup] at hField
        cases hField
        obtain ⟨before, after, rfl, -⟩ := List.lookup_eq_some_iff.mp hLookup
        exact .member (List.mem_append_right _ List.mem_cons_self) .str
    | _ => cases hField
  | _ => cases hString

variable {c : StoredCredential} {m : Storage}

/-- An entry that `parse_storage` accepts: the last thing it does with it is to validate it, and
the text fields are strings of the entry. -/
theorem parseEntry_ok {entry : Json} (h : parseEntry entry = .ok c) :
    validateCredential c = .ok () ∧ entry.Contains c.rpId ∧ entry.Contains c.userName ∧
      entry.Contains c.userDisplayName := by
  unfold parseEntry at h
  cases entry with
  | obj members =>
    iterate 3 obtain ⟨_, -, h⟩ := bind_eq_ok.mp h
    obtain ⟨-, h⟩ := guard_eq_ok.mp h
    obtain ⟨_, -, h⟩ := bind_eq_ok.mp h
    iterate 2 obtain ⟨-, h⟩ := guard_eq_ok.mp h
    obtain ⟨discoverable, -, h⟩ := bind_eq_ok.mp h
    cases discoverable with
    | bool b =>
      iterate 2 obtain ⟨_, -, h⟩ := bind_eq_ok.mp h
      iterate 2 obtain ⟨-, h⟩ := guard_eq_ok.mp h
      obtain ⟨_, hRpField, h⟩ := bind_eq_ok.mp h
      obtain ⟨rpId, hRpId, h⟩ := bind_eq_ok.mp h
      obtain ⟨-, h⟩ := guard_eq_ok.mp h
      iterate 2 obtain ⟨_, -, h⟩ := bind_eq_ok.mp h
      obtain ⟨_, -, h⟩ := bind_eq_ok.mp h
      obtain ⟨-, h⟩ := guard_eq_ok.mp h
      obtain ⟨_, hNameField, h⟩ := bind_eq_ok.mp h
      obtain ⟨userName, hName, h⟩ := bind_eq_ok.mp h
      obtain ⟨_, hDisplayField, h⟩ := bind_eq_ok.mp h
      obtain ⟨userDisplayName, hDisplay, h⟩ := bind_eq_ok.mp h
      iterate 2 obtain ⟨_, -, h⟩ := bind_eq_ok.mp h
      obtain ⟨-, h⟩ := guard_eq_ok.mp h
      obtain ⟨_, -, h⟩ := bind_eq_ok.mp h
      iterate 2 obtain ⟨-, h⟩ := guard_eq_ok.mp h
      iterate 2 obtain ⟨_, -, h⟩ := bind_eq_ok.mp h
      obtain ⟨_, hValid, h⟩ := bind_eq_ok.mp h
      cases h
      exact ⟨hValid, contains_of_field hRpField hRpId, contains_of_field hNameField hName,
        contains_of_field hDisplayField hDisplay⟩
    | _ => cases h
  | _ => cases h

/-- The loop of `parse_storage` keeps the entries read so far valid. -/
theorem parseEntries_valid {entries : List Json} {loaded : Storage} (hLoaded : loaded.Valid)
    (hSize : loaded.size + entries.length ≤ maxCredentials)
    (h : parseEntries loaded entries = .ok m) : m.Valid := by
  induction entries generalizing loaded with
  | nil =>
    cases h
    exact hLoaded
  | cons entry entries ih =>
    obtain ⟨c, hEntry, h⟩ := bind_eq_ok.mp h
    obtain ⟨-, h⟩ := guard_eq_ok.mp h
    have hInsert : (loaded.insert (hexEncode c.id) c).size ≤ loaded.size + 1 :=
      Std.ExtTreeMap.size_insert_le
    rw [List.length_cons] at hSize
    exact ih (hLoaded.insert (parseEntry_ok hEntry).1 (by omega)) (by omega) h

/-- **Whatever `parse_storage` returns is valid.** -/
theorem parseStorage_valid {json : Json} (h : parseStorage json = .ok m) : m.Valid := by
  cases json with
  | arr entries =>
    by_cases hSize : entries.length > maxCredentials
    · simp [parseStorage, hSize] at h
    · simp only [parseStorage, if_neg hSize] at h
      refine parseEntries_valid Storage.valid_empty ?_ h
      rw [Std.ExtTreeMap.size_empty]
      omega
  | _ => cases h

theorem parsePlaintext_valid {P : Platform} {text : Bytes} (h : parsePlaintext P text = .ok m) :
    m.Valid := by
  unfold parsePlaintext at h
  split at h
  · cases h
  · exact parseStorage_valid h

/-! ## Texts -/

/-- Valid UTF-8: the encoding of some characters. -/
def Utf8 (bytes : Bytes) : Prop := ∃ chars : List Char, bytes = chars.flatMap String.utf8EncodeChar

/-- The text fields of a credential are UTF-8. -/
structure StoredCredential.Textual (c : StoredCredential) : Prop where
  rpId : Utf8 c.rpId
  userName : Utf8 c.userName
  userDisplayName : Utf8 c.userDisplayName

def Storage.Textual (m : Storage) : Prop := ∀ (k : Bytes) (c : StoredCredential),
  m[k]? = some c → c.Textual

/-- `dump` refuses nothing but text that is not UTF-8. -/
def Platform.DumpsText (P : Platform) : Prop := ∀ items : List (Bytes × StoredCredential),
  (∀ item ∈ items, item.2.Textual) → ∃ text, P.dump (storageDocument items) = some text

theorem renderPlatform_dumpsText : renderPlatform.DumpsText := fun _ _ => ⟨_, rfl⟩

theorem utf8_replicate (n : Nat) (c : Char) (h : c.utf8Size = 1) :
    Utf8 (List.replicate n c.val.toUInt8) := by
  refine ⟨List.replicate n c, ?_⟩
  rw [List.flatMap_replicate, String.utf8EncodeChar_eq_singleton h]
  simp

/-! ## The round trip -/

/-- `encrypt` takes exactly the plaintexts whose size OpenSSL can be told. -/
theorem encrypt_ok (P : Platform) (iv : Nonce) {plaintext : Bytes} (generation : UInt64)
    (h : plaintext.length ≤ 2147483647) : ∃ e, encrypt P iv plaintext generation = .ok e := by
  have hHeader : ¬ (envelopeHeader generation iv).length > 2147483647 := by
    rw [length_envelopeHeader]
    decide
  unfold encrypt opensslCheckedSize
  simp only [if_neg hHeader, if_neg (Nat.not_lt.mpr h)]
  exact ⟨_, rfl⟩

theorem encrypt_error (P : Platform) (iv : Nonce) {plaintext : Bytes} (generation : UInt64)
    (h : 2147483647 < plaintext.length) : encrypt P iv plaintext generation =
      .error (.lengthError "credential plaintext is too large for OpenSSL") := by
  have hHeader : ¬ (envelopeHeader generation iv).length > 2147483647 := by
    rw [length_envelopeHeader]
    decide
  unfold encrypt opensslCheckedSize
  simp only [if_neg hHeader, if_pos h]
  rfl

/-- **Writing and reading the store.** A valid map with UTF-8 texts is read back from the document
it is saved as; a plaintext that OpenSSL can take is read back from its envelope with its
generation, and a longer one is refused; and every map that is read is valid. -/
theorem store_round_trip {P : Platform} (hP : P.Lawful) (hDump : P.DumpsText) :
    (∀ m : Storage, m.Valid → m.Textual → parseStorage (storageDocument (P.iterate m)) = .ok m ∧
      ∃ text, P.dump (storageDocument (P.iterate m)) = some text ∧ parsePlaintext P text = .ok m) ∧
    (∀ (plaintext : Bytes) (generation : UInt64) (iv : Nonce),
      (plaintext.length ≤ 2147483647 → ∃ e, encrypt P iv plaintext generation = .ok e ∧
        decrypt P e = .ok { generation, plaintext }) ∧
      (2147483647 < plaintext.length → encrypt P iv plaintext generation =
        .error (.lengthError "credential plaintext is too large for OpenSSL"))) ∧
    ∀ (json : Json) (m : Storage), parseStorage json = .ok m → m.Valid := by
  refine ⟨fun m hValid hTextual => ?_, fun plaintext generation iv => ⟨fun hSize => ?_,
    encrypt_error P iv generation⟩, fun json m => parseStorage_valid⟩
  · have hRead := parseStorage_document hValid (hP.iterate_perm m)
    have hItems : ∀ item ∈ P.iterate m, item.2.Textual := by
      intro item hItem
      refine hTextual item.1 item.2 ?_
      exact Std.ExtTreeMap.mem_toList_iff_getElem?_eq_some.mp ((hP.iterate_perm m).mem_iff.mp hItem)
    obtain ⟨text, hText⟩ := hDump _ hItems
    refine ⟨hRead, text, hText, ?_⟩
    rw [parsePlaintext, hP.parse_dump _ _ hText]
    exact hRead
  · obtain ⟨e, he⟩ := encrypt_ok P iv generation hSize
    exact ⟨e, he, decrypt_encrypt hP he⟩

/-- A credential with every number at its largest and empty names. -/
def extremeCredential : StoredCredential where
  id := List.replicate 16 255
  ownerUid := 4294967295
  rpId := Json.ascii "a"
  userId := [0]
  userName := []
  userDisplayName := []
  alg := -7
  signCount := 4294967295
  privateBlob := [255]
  publicBlob := [0]
  discoverable := false
  creationOrder := 18446744073709551615

/-- The map of one credential. -/
def single (c : StoredCredential) : Storage := ({} : Storage).insert (hexEncode c.id) c

theorem toList_single (c : StoredCredential) : (single c).toList = [(hexEncode c.id, c)] := rfl

theorem single_valid (hc : validateCredential c = .ok ()) : (single c).Valid :=
  Storage.valid_empty.insert hc (Nat.le_trans Std.ExtTreeMap.size_insert_le (by decide))

theorem single_textual (hc : c.Textual) : (single c).Textual := by
  intro k d hd
  rw [single, Std.ExtTreeMap.getElem?_insert] at hd
  split at hd
  · cases hd
    exact hc
  · simp at hd

theorem store_round_trip_extremeCredential : (∃ text, renderPlatform.dump (storageDocument
        (renderPlatform.iterate (single extremeCredential))) = some text ∧
      parsePlaintext renderPlatform text = .ok (single extremeCredential)) ∧
    ∃ e, encrypt renderPlatform (Vector.replicate nonceSize 0) [1, 2, 3] maxUInt64 = .ok e ∧
      decrypt renderPlatform e = .ok { generation := maxUInt64, plaintext := [1, 2, 3] } := by
  obtain ⟨hMaps, hEnvelopes, -⟩ := store_round_trip renderPlatform_lawful renderPlatform_dumpsText
  refine ⟨(hMaps _ (single_valid (by decide)) (single_textual ?_)).2,
    (hEnvelopes [1, 2, 3] maxUInt64 _).1 (by decide)⟩
  exact ⟨utf8_replicate 1 'a' (by decide), ⟨[], rfl⟩, ⟨[], rfl⟩⟩

/-! ## A name that is too long -/

theorem length_le_quote (s : Bytes) : s.length ≤ (quote s).length := by
  have hEscape : ∀ b, 1 ≤ (escape b).length := by
    intro b
    rcases escape_head b with ⟨c, e, hEscape⟩ | ⟨hEscape, -⟩
    · simp [hEscape]
    · simp [hEscape]
  have hAll : s.length ≤ (s.flatMap escape).length := by
    induction s with
    | nil => exact Nat.le_refl 0
    | cons b s ih =>
      have := hEscape b
      simp only [List.flatMap_cons, List.length_append, List.length_cons]
      omega
  simp only [quote, List.length_cons, List.length_append]
  omega

theorem length_le_render (c : StoredCredential) :
    c.userDisplayName.length ≤ (storageDocument [(hexEncode c.id, c)]).render.length := by
  have hQuote := length_le_quote c.userDisplayName
  simp only [storageDocument, List.map_cons, List.map_nil, credentialDocument, render,
    renderElements, renderMembers, List.length_cons, List.length_append]
  omega

/-- The sample credential with a display name of this length. -/
def longNamed (n : Nat) : StoredCredential :=
  { sampleCredential with userDisplayName := List.replicate n 97 }

theorem longNamed_valid (n : Nat) : validateCredential (longNamed n) = .ok () :=
  validateCredential_ok_iff.mpr (validateCredential_ok_iff.mp (by decide :
    validateCredential sampleCredential = .ok ()))

theorem longNamed_textual (n : Nat) : (longNamed n).Textual where
  rpId := ⟨"example.org".toList, show sampleCredential.rpId = _ by decide⟩
  userName := ⟨"alice".toList, show sampleCredential.userName = _ by decide⟩
  userDisplayName := utf8_replicate n 'a' (by decide)

/-- A display name of two gigabytes is valid, but its plaintext is not encrypted. -/
theorem long_name_not_encrypted : ∃ (P : Platform) (m : Storage) (text : Bytes),
    P.Lawful ∧ P.DumpsText ∧ m.Valid ∧ m.Textual ∧
    P.dump (storageDocument (P.iterate m)) = some text ∧ ∀ iv generation,
      encrypt P iv text generation =
        .error (.lengthError "credential plaintext is too large for OpenSSL") := by
  refine ⟨renderPlatform, single (longNamed 2147483648), _, renderPlatform_lawful,
    renderPlatform_dumpsText, single_valid (longNamed_valid _), single_textual (longNamed_textual _),
    rfl, fun iv generation => encrypt_error _ iv generation ?_⟩
  have hLength := length_le_render (longNamed 2147483648)
  rw [show renderPlatform.iterate (single (longNamed 2147483648)) = _ from toList_single _]
  refine Nat.lt_of_lt_of_le ?_ hLength
  rw [longNamed, List.length_replicate]
  decide

end VAuth.Store
