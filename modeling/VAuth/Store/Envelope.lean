import VAuth.Store.Credential

/-!
# The envelope of the store

`CredentialStore::encrypt` and `decrypt`: a 29-byte header (magic, version, generation,
nonce), the ciphertext and a 16-byte tag, the header being authenticated with the text.
AES-256-GCM under the store key, the JSON reader and writer and the listing order of
`std::unordered_map` belong to the platform; `Platform.Lawful` is what their documentation
promises of them.
-/

namespace VAuth.Store

/-- The libraries the store rests on. -/
structure Platform where
  /-- The order in which a hash table lists its items. -/
  iterate : Storage → List (Bytes × StoredCredential)
  /-- `nlohmann::json::dump`, which refuses text that is not UTF-8. -/
  dump : Json → Option Bytes
  /-- `nlohmann::json::parse`. -/
  parse : Bytes → Option Json
  /-- AES-256-GCM under the store key: nonce, authenticated data and plaintext give the
  ciphertext and the tag. -/
  encipher : Bytes → Bytes → Bytes → Bytes × Bytes
  /-- The inverse direction, which fails when the tag does not fit. -/
  decipher : Bytes → Bytes → Bytes → Bytes → Option Bytes
  /-- What OpenSSL's error queue says of a failed operation. -/
  opensslError : String → Option String := fun _ => none

structure Platform.Lawful (P : Platform) : Prop where
  iterate_perm : ∀ m, (P.iterate m).Perm m.toList
  parse_dump : ∀ items text, P.dump (storageDocument items) = some text →
    P.parse text = some (storageDocument items)
  decipher_encipher : ∀ nonce aad plaintext, P.decipher nonce aad
    (P.encipher nonce aad plaintext).1 (P.encipher nonce aad plaintext).2 = some plaintext
  cipher_length : ∀ nonce aad plaintext,
    (P.encipher nonce aad plaintext).1.length = plaintext.length
  tag_length : ∀ nonce aad plaintext, (P.encipher nonce aad plaintext).2.length = 16

def throwOpensslError (P : Platform) (operation : String) : Exn :=
  .runtimeError (match P.opensslError operation with
    | none => operation ++ " failed"
    | some description => operation ++ ": " ++ description)

def storeMagic : Bytes := [86, 70, 73, 68, 79, 50, 68, 66]

def storeFormatVersion : UInt8 := 1

def nonceSize : Nat := 12

def tagSize : Nat := 16

def headerSize : Nat := storeMagic.length + 1 + 8 + nonceSize

/-- The nonce `encrypt` draws. -/
abbrev Nonce := Vector UInt8 nonceSize

def appendUint64Be (output : Bytes) (value : UInt64) : Bytes :=
  output ++ [56, 48, 40, 32, 24, 16, 8, 0].map fun (shift : UInt64) => (value >>> shift).toUInt8

def readUint64Be (bytes : Bytes) : UInt64 :=
  bytes.foldl (fun value byte => (value <<< 8) ||| byte.toUInt64) 0

def opensslCheckedSize (size : Nat) (valueName : String) : Except Exn Nat :=
  if size > 2147483647 then .error (.lengthError (valueName ++ " is too large for OpenSSL"))
  else .ok size

structure DecryptedStore where
  generation : UInt64
  plaintext : Bytes
deriving DecidableEq

/-- The authenticated header. -/
def envelopeHeader (generation : UInt64) (iv : Nonce) : Bytes :=
  appendUint64Be (storeMagic ++ [storeFormatVersion]) generation ++ iv.toList

def encrypt (P : Platform) (iv : Nonce) (plaintext : Bytes) (generation : UInt64) :
    Except Exn Bytes := do
  let header := envelopeHeader generation iv
  let _ ← opensslCheckedSize header.length "credential store header"
  let _ ← opensslCheckedSize plaintext.length "credential plaintext"
  let (cipher, tag) := P.encipher iv.toList header plaintext
  return header ++ cipher ++ tag

def decrypt (P : Platform) (ciphertext : Bytes) : Except Exn DecryptedStore := do
  if ciphertext.length < headerSize + tagSize then
    throw (.runtimeError "Credential store envelope is too short")
  if ciphertext.take storeMagic.length ≠ storeMagic then
    throw (.runtimeError "Credential store has an invalid format marker")
  if ciphertext[storeMagic.length]? ≠ some storeFormatVersion then
    throw (.runtimeError "Credential store has an unsupported version")
  let generationOffset := storeMagic.length + 1
  let generation := readUint64Be ((ciphertext.drop generationOffset).take 8)
  let iv := (ciphertext.drop (generationOffset + 8)).take nonceSize
  let tag := ciphertext.drop (ciphertext.length - tagSize)
  let ctlen ← opensslCheckedSize (ciphertext.length - headerSize - tagSize) "credential ciphertext"
  let cipher := (ciphertext.drop headerSize).take ctlen
  match P.decipher iv (ciphertext.take headerSize) cipher tag with
  | some plaintext => return { generation, plaintext }
  | none => throw (throwOpensslError P "EVP_DecryptFinal_ex (GCM authentication failed)")

/-! ## The round trip -/

theorem toNat_pushByte {v : UInt64} (b : UInt8) (h : v.toNat < 2 ^ 56) :
    ((v <<< 8) ||| b.toUInt64).toNat = v.toNat * 256 + b.toNat := by
  have hb : b.toNat < 2 ^ 8 := b.toNat_lt
  have hv : v.toNat <<< 8 < 2 ^ 64 := by
    rw [Nat.shiftLeft_eq]
    omega
  rw [UInt64.toNat_or, UInt64.toNat_shiftLeft, UInt8.toNat_toUInt64,
    show (8 : UInt64).toNat % 64 = 8 from rfl, Nat.mod_eq_of_lt hv,
    ← Nat.shiftLeft_add_eq_or_of_lt hb, Nat.shiftLeft_eq]

theorem toNat_byteAt (v : UInt64) {s : UInt64} (hs : s.toNat < 64) :
    (v >>> s).toUInt8.toNat = v.toNat / 2 ^ s.toNat % 256 := by
  rw [UInt64.toNat_toUInt8, UInt64.toNat_shiftRight, Nat.mod_eq_of_lt hs, Nat.shiftRight_eq_div_pow]

/-- Pushing the byte at `t` onto the bytes above it gives the bytes from `t` on. -/
theorem pushByte_shiftRight (v : UInt64) {s t : UInt64} (hst : s.toNat = t.toNat + 8)
    (hs : s.toNat < 64) : ((v >>> s) <<< 8) ||| (v >>> t).toUInt8.toUInt64 = v >>> t := by
  have hv := v.toNat_lt
  have ht : t.toNat < 64 := by omega
  have hShift : (v >>> s).toNat = v.toNat / 2 ^ t.toNat / 256 := by
    rw [UInt64.toNat_shiftRight, Nat.mod_eq_of_lt hs, Nat.shiftRight_eq_div_pow, hst, Nat.pow_add,
      Nat.div_div_eq_div_mul]
  have hSmall : (v >>> s).toNat < 2 ^ 56 := by
    have := Nat.div_le_self v.toNat (2 ^ t.toNat)
    omega
  apply UInt64.toNat_inj.mp
  rw [toNat_pushByte _ hSmall, toNat_byteAt v ht, hShift, UInt64.toNat_shiftRight,
    Nat.mod_eq_of_lt ht, Nat.shiftRight_eq_div_pow]
  omega

theorem pushByte_top (v : UInt64) :
    ((0 : UInt64) <<< 8) ||| (v >>> 56).toUInt8.toUInt64 = v >>> 56 := by
  have hv := v.toNat_lt
  apply UInt64.toNat_inj.mp
  rw [toNat_pushByte _ (by decide), toNat_byteAt v (by decide), UInt64.toNat_shiftRight,
    Nat.shiftRight_eq_div_pow]
  change 0 * 256 + v.toNat / 2 ^ 56 % 256 = v.toNat / 2 ^ 56
  omega

theorem readUint64Be_append (value : UInt64) : readUint64Be (appendUint64Be [] value) = value := by
  simp only [readUint64Be, appendUint64Be, List.nil_append, List.map, List.foldl, pushByte_top]
  iterate 7 rw [pushByte_shiftRight value (by decide) (by decide)]
  simp

theorem length_envelopeHeader (generation : UInt64) (iv : Nonce) :
    (envelopeHeader generation iv).length = headerSize := by
  simp only [envelopeHeader, appendUint64Be, headerSize, List.length_append, List.length_map,
    List.length_cons, List.length_nil, Vector.length_toList]

/-- What `encrypt` returns. -/
theorem encrypt_eq_ok {P : Platform} {iv : Nonce} {plaintext e : Bytes} {generation : UInt64}
    (h : encrypt P iv plaintext generation = .ok e) : plaintext.length ≤ 2147483647 ∧
      e = envelopeHeader generation iv ++
        (P.encipher iv.toList (envelopeHeader generation iv) plaintext).1 ++
        (P.encipher iv.toList (envelopeHeader generation iv) plaintext).2 := by
  have hHeader : ¬ (envelopeHeader generation iv).length > 2147483647 := by
    rw [length_envelopeHeader]
    decide
  simp only [encrypt, opensslCheckedSize, if_neg hHeader, bind, Except.bind, pure, Except.pure] at h
  split at h
  · cases h
  · rename_i hSize
    split at hSize
    · cases hSize
    · exact ⟨by omega, (Except.ok.inj h).symm⟩

/-- How `decrypt` takes an envelope apart. -/
theorem decrypt_envelope (P : Platform) (generation : UInt64) (iv : Nonce) {cipher tag : Bytes}
    (hTag : tag.length = tagSize) (hSize : cipher.length ≤ 2147483647) :
    decrypt P (envelopeHeader generation iv ++ cipher ++ tag) =
      match P.decipher iv.toList (envelopeHeader generation iv) cipher tag with
      | some plaintext => .ok { generation, plaintext }
      | none =>
        .error (throwOpensslError P "EVP_DecryptFinal_ex (GCM authentication failed)") := by
  have hHeader := length_envelopeHeader generation iv
  have hIv : iv.toList.length = nonceSize := Vector.length_toList
  have hWord : (appendUint64Be [] generation).length = 8 := rfl
  have hMarkSize : (storeMagic ++ [storeFormatVersion]).length = storeMagic.length + 1 := rfl
  have hPlainSize : (storeMagic ++ [storeFormatVersion] ++ appendUint64Be [] generation).length =
      storeMagic.length + 1 + 8 := rfl
  -- The envelope, split after each part that `decrypt` skips.
  generalize hE : envelopeHeader generation iv ++ cipher ++ tag = e
  have hMarked : e = storeMagic ++ (storeFormatVersion :: (appendUint64Be [] generation ++
      (iv.toList ++ (cipher ++ tag)))) := by
    rw [← hE]
    simp [envelopeHeader, appendUint64Be]
  have hVersioned : e = (storeMagic ++ [storeFormatVersion]) ++ (appendUint64Be [] generation ++
      (iv.toList ++ (cipher ++ tag))) := by
    rw [hMarked, List.append_assoc, List.singleton_append]
  have hNumbered : e = (storeMagic ++ [storeFormatVersion] ++ appendUint64Be [] generation) ++
      (iv.toList ++ (cipher ++ tag)) := by
    rw [hVersioned, List.append_assoc (storeMagic ++ [storeFormatVersion])]
  have hLength : e.length = headerSize + cipher.length + tagSize := by
    rw [← hE, List.length_append, List.length_append, hHeader, hTag]
  have hLong : ¬ e.length < headerSize + tagSize := by omega
  have hMagic : ¬ e.take storeMagic.length ≠ storeMagic := by
    rw [not_not, hMarked, List.take_left' rfl]
  have hVersion : ¬ e[storeMagic.length]? ≠ some storeFormatVersion := by
    rw [not_not, hMarked, List.getElem?_append_right (Nat.le_refl _), Nat.sub_self]
    rfl
  have hGeneration : (e.drop (storeMagic.length + 1)).take 8 = appendUint64Be [] generation := by
    rw [hVersioned, List.drop_left' hMarkSize, List.take_left' hWord]
  have hNonce : (e.drop (storeMagic.length + 1 + 8)).take nonceSize = iv.toList := by
    rw [hNumbered, List.drop_left' hPlainSize, List.take_left' hIv]
  have hAad : e.take headerSize = envelopeHeader generation iv := by
    rw [← hE, List.append_assoc, List.take_left' hHeader]
  have hCipher : (e.drop headerSize).take (e.length - headerSize - tagSize) = cipher := by
    rw [show e.length - headerSize - tagSize = cipher.length by omega, ← hE, List.append_assoc,
      List.drop_left' hHeader, List.take_left' rfl]
  have hTagPart : e.drop (e.length - tagSize) = tag := by
    rw [show e.length - tagSize = headerSize + cipher.length by omega, ← hE,
      List.drop_left' (by rw [List.length_append, hHeader])]
  have hChecked : opensslCheckedSize (e.length - headerSize - tagSize) "credential ciphertext" =
      .ok (e.length - headerSize - tagSize) := by
    rw [opensslCheckedSize, if_neg (by omega)]
  simp only [decrypt, if_neg hLong, if_neg hMagic, if_neg hVersion, hGeneration, hNonce, hAad,
    hTagPart, hChecked, bind, Except.bind, pure, Except.pure, hCipher, readUint64Be_append]
  rfl

/-- **Decrypting undoes encrypting.** -/
theorem decrypt_encrypt {P : Platform} (hP : P.Lawful) {iv : Nonce} {plaintext e : Bytes}
    {generation : UInt64} (h : encrypt P iv plaintext generation = .ok e) :
    decrypt P e = .ok { generation, plaintext } := by
  obtain ⟨hSize, rfl⟩ := encrypt_eq_ok h
  rw [decrypt_envelope P generation iv (hP.tag_length _ _ _)
    (by rw [hP.cipher_length]; exact hSize), hP.decipher_encipher]

/-! ## A platform of listed documents

A platform that can write the documents of a table and nothing else, with a cipher that
leaves the text as it is and adds a checksum. Concrete runs use it. -/

/-- A checksum over the nonce, the authenticated data and the text. -/
def checksum (nonce aad text : Bytes) : Bytes :=
  List.replicate tagSize ((nonce ++ aad ++ text).foldl (fun sum b => sum * 31 + b) 7)

def tablePlatform (table : List (Json × Bytes)) : Platform where
  iterate := fun m => m.toList
  dump := fun json => table.lookup json
  parse := fun text => (table.find? fun row => row.2 == text).map Prod.fst
  encipher := fun nonce aad text => (text, checksum nonce aad text)
  decipher := fun nonce aad text tag => if tag = checksum nonce aad text then some text else none

variable {table : List (Json × Bytes)}

theorem find?_of_lookup (hTable : table.Pairwise fun a b => a.2 ≠ b.2) {json : Json} {text : Bytes}
    (h : table.lookup json = some text) :
    table.find? (fun row => row.2 == text) = some (json, text) := by
  induction table with
  | nil => cases h
  | cons row table ih =>
    obtain ⟨j, t⟩ := row
    obtain ⟨hHead, hTail⟩ := List.pairwise_cons.mp hTable
    rw [List.lookup_cons] at h
    by_cases hj : json = j
    · subst hj
      rw [beq_self_eq_true] at h
      cases h
      rw [List.find?_cons_of_pos (by simp)]
    · rw [beq_eq_false_iff_ne.mpr hj] at h
      have hRest := ih hTail h
      have hNe : t ≠ text := hHead (json, text) (List.mem_of_find?_eq_some hRest)
      rw [List.find?_cons_of_neg (by simpa using hNe), hRest]

theorem tablePlatform_lawful (hTable : table.Pairwise fun a b => a.2 ≠ b.2) :
    (tablePlatform table).Lawful where
  iterate_perm := fun m => List.Perm.refl _
  parse_dump := by
    intro items text hDump
    simp only [tablePlatform] at hDump ⊢
    rw [find?_of_lookup hTable hDump]
    rfl
  decipher_encipher := fun _ _ _ => if_pos rfl
  cipher_length := fun _ _ _ => rfl
  tag_length := fun _ _ _ => List.length_replicate

/-- A discoverable credential as `put` stores it first. -/
def sampleCredential : StoredCredential where
  id := List.replicate 16 7
  ownerUid := 1000
  rpId := Json.ascii "example.org"
  userId := [1, 2]
  userName := Json.ascii "alice"
  userDisplayName := Json.ascii "Alice"
  alg := -7
  signCount := 0
  privateBlob := [1, 2, 3]
  publicBlob := [4, 5, 6]
  discoverable := true
  creationOrder := 1

def sampleDocuments : List Json :=
  [storageDocument [], storageDocument [(hexEncode sampleCredential.id, sampleCredential)],
    storageDocument [(hexEncode sampleCredential.id, { sampleCredential with signCount := 1 })]]

/-- The platform that can write the empty map and the map of the sample credential, before
and after its first assertion. -/
def samplePlatform : Platform := tablePlatform (sampleDocuments.map fun json => (json, json.render))

theorem samplePlatform_lawful : samplePlatform.Lawful := tablePlatform_lawful (by decide +kernel)

end VAuth.Store
