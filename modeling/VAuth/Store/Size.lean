import VAuth.Store.Rendering
import VAuth.Store.Runs
import Mathlib.Algebra.Order.BigOperators.Group.List
import Mathlib.Algebra.Order.Group.Nat
import Mathlib.Data.List.Perm.Subperm

/-!
# The size of a store file

How long the text of a credential, of a map and of its envelope can be. A byte of a text takes at
most six bytes of JSON (`\u001f`), a byte of a blob at most four (three digits and a comma), a byte
of an identifier two; the member names and the numbers of a credential take at most 214. The
`weight` of a map is the sum of these bounds. No bound on the file follows from the limits that
`validate_credential` sets, since names have none.
-/

namespace VAuth.Store

open Proc Json

/-! ## The length of a document -/

theorem length_escape_le (b : UInt8) : (escape b).length ≤ 6 := by
  have key : ∀ b : BitVec 8, (escape (UInt8.ofBitVec b)).length ≤ 6 := by decide +kernel
  exact key b.toBitVec

theorem length_quote_le (s : Bytes) : (quote s).length ≤ 6 * s.length + 2 := by
  have hAll : (s.flatMap escape).length ≤ 6 * s.length := by
    induction s with
    | nil => exact Nat.le_refl 0
    | cons b s ih =>
      have := length_escape_le b
      simp only [List.flatMap_cons, List.length_append, List.length_cons]
      omega
  simp only [quote, List.length_cons, List.length_append, List.length_nil]
  omega

/-- Hexadecimal digits are not escaped. -/
theorem length_quote_hexEncode (v : Bytes) : (quote (hexEncode v)).length = 2 * v.length + 2 := by
  have key : ∀ b : BitVec 8, ([hexDigit (UInt8.ofBitVec b >>> 4),
      hexDigit (UInt8.ofBitVec b &&& 15)].flatMap escape).length = 2 := by decide +kernel
  have hAll : ((hexEncode v).flatMap escape).length = 2 * v.length := by
    induction v with
    | nil => rfl
    | cons b v ih =>
      have hDigits : ([hexDigit (b >>> 4), hexDigit (b &&& 15)].flatMap escape).length = 2 :=
        key b.toBitVec
      rw [hexEncode, List.flatMap_cons, List.flatMap_append, List.length_append, hDigits]
      rw [hexEncode] at ih
      rw [ih, List.length_cons]
      omega
  simp only [quote, List.length_cons, List.length_append, List.length_nil, hAll]

theorem length_decimal_le {n k : Nat} (hk : 0 < k) (h : n < 10 ^ k) : (decimal n).length ≤ k := by
  rw [decimal_eq, if_neg (by omega), digits, List.length_map, Int.natAbs_natCast]
  exact (Nat.length_toDigits_le_iff (by decide) hk).mpr h

theorem length_byteArray_le (bytes : Bytes) :
    (byteArray bytes).render.length ≤ 4 * bytes.length + 2 := by
  have hElement : ∀ b : UInt8, (Json.num b.toNat).render.length ≤ 3 := by
    intro b
    rw [render]
    exact length_decimal_le (by decide) (Nat.lt_trans b.toNat_lt (by decide))
  have hRest : ∀ bytes : Bytes,
      (renderElements (bytes.map fun b => .num b.toNat)).length ≤ 4 * bytes.length := by
    intro bytes
    induction bytes with
    | nil => exact Nat.le_refl 0
    | cons b bytes ih =>
      have := hElement b
      simp only [List.map_cons, renderElements, List.length_append, List.length_cons]
      omega
  cases bytes with
  | nil => decide
  | cons b bytes =>
    have hFirst := hElement b
    have hOthers := hRest bytes
    simp only [byteArray, List.map_cons, render, List.length_append, List.length_cons,
      List.length_nil] at hFirst ⊢
    omega

/-- A bound for the text of a credential in the document, with the comma before it. -/
def StoredCredential.weight (c : StoredCredential) : Nat :=
  214 + 2 * (c.id.length + c.userId.length) +
    6 * (c.rpId.length + c.userName.length + c.userDisplayName.length) +
    4 * (c.privateBlob.length + c.publicBlob.length)

theorem length_credentialDocument_le {c : StoredCredential} (h : c.alg = -7) :
    (credentialDocument c).render.length + 1 ≤ c.weight := by
  have hAlg : (decimal c.alg.toInt).length = 2 := by rw [h]; decide
  have hOrder := length_decimal_le (n := c.creationOrder.toNat) (k := 20) (by decide)
    (Nat.lt_trans c.creationOrder.toNat_lt (by decide))
  have hOwner := length_decimal_le (n := c.ownerUid.toNat) (k := 10) (by decide)
    (Nat.lt_trans c.ownerUid.toNat_lt (by decide))
  have hCount := length_decimal_le (n := c.signCount.toNat) (k := 10) (by decide)
    (Nat.lt_trans c.signCount.toNat_lt (by decide))
  have hDiscoverable : (ascii (if c.discoverable then "true" else "false")).length ≤ 5 := by
    cases c.discoverable <;> decide
  have hId := length_quote_hexEncode c.id
  have hUser := length_quote_hexEncode c.userId
  have hPrivate := length_byteArray_le c.privateBlob
  have hPublic := length_byteArray_le c.publicBlob
  have hRp := length_quote_le c.rpId
  have hName := length_quote_le c.userName
  have hDisplay := length_quote_le c.userDisplayName
  have hKeys : (quote (ascii "alg")).length + (quote (ascii "creationOrder")).length +
      (quote (ascii "discoverable")).length + (quote (ascii "id")).length +
      (quote (ascii "ownerUid")).length + (quote (ascii "private_blob")).length +
      (quote (ascii "public_blob")).length + (quote (ascii "rpId")).length +
      (quote (ascii "signCount")).length + (quote (ascii "userDisplayName")).length +
      (quote (ascii "userId")).length + (quote (ascii "userName")).length = 127 := by
    decide +kernel
  simp only [credentialDocument, render, renderMembers, List.length_append, List.length_cons,
    List.length_nil, StoredCredential.weight]
  omega

theorem length_storageDocument_le {items : List (Bytes × StoredCredential)}
    (h : ∀ item ∈ items, item.2.alg = -7) :
    (storageDocument items).render.length ≤ 2 + (items.map fun item => item.2.weight).sum := by
  have hRest : ∀ items : List (Bytes × StoredCredential), (∀ item ∈ items, item.2.alg = -7) →
      (renderElements (items.map fun item => credentialDocument item.2)).length ≤
        (items.map fun item => item.2.weight).sum := by
    intro items h
    induction items with
    | nil => exact Nat.le_refl 0
    | cons item items ih =>
      have hFirst := length_credentialDocument_le (h item List.mem_cons_self)
      have hOthers := ih fun x hx => h x (List.mem_cons_of_mem _ hx)
      simp only [List.map_cons, renderElements, List.length_append, List.length_cons, List.sum_cons]
      omega
  cases items with
  | nil => decide
  | cons item items =>
    have hFirst := length_credentialDocument_le (h item List.mem_cons_self)
    have hOthers := hRest items fun x hx => h x (List.mem_cons_of_mem _ hx)
    simp only [storageDocument, List.map_cons, render, List.length_append, List.length_cons,
      List.length_nil, List.sum_cons]
    omega

/-! ## The weight of a map -/

/-- A bound for the texts of all credentials of a map. -/
def Storage.weight (m : Storage) : Nat := (m.toList.map fun item => item.2.weight).sum

/-- Two brackets, the header and the tag. -/
def envelopeOverhead : Nat := 2 + headerSize + tagSize

theorem Storage.weight_listed (m : Storage) :
    ((m.toList.map fun item => (item.1, item.2.weight)).map Prod.snd).sum = m.weight := by
  rw [Storage.weight, List.map_map]
  rfl

variable {m : Storage}

theorem Storage.weight_le (listed : List (Bytes × Nat))
    (h : ∀ (k : Bytes) (c : StoredCredential), m[k]? = some c → (k, c.weight) ∈ listed) :
    m.weight ≤ (listed.map Prod.snd).sum := by
  have hNodup : (m.toList.map fun item => (item.1, item.2.weight)).Nodup := by
    refine List.pairwise_map.mpr (Std.ExtTreeMap.distinct_keys_toList.imp fun hNe hSame => hNe ?_)
    rw [(Prod.mk.inj hSame).1]
    exact Std.ReflCmp.compare_self
  have hSubset : (m.toList.map fun item => (item.1, item.2.weight)) ⊆ listed := by
    intro entry hEntry
    obtain ⟨⟨k, c⟩, hItem, rfl⟩ := List.mem_map.mp hEntry
    exact h k c (Std.ExtTreeMap.mem_toList_iff_getElem?_eq_some.mp hItem)
  obtain ⟨part, hPerm, hSublist⟩ := List.subperm_of_subset hNodup hSubset
  calc m.weight = ((m.toList.map fun item => (item.1, item.2.weight)).map Prod.snd).sum :=
        m.weight_listed.symm
    _ = (part.map Prod.snd).sum := (hPerm.map Prod.snd).sum_eq.symm
    _ ≤ (listed.map Prod.snd).sum := (hSublist.map Prod.snd).sum_le_sum fun _ _ => Nat.zero_le _

theorem mem_listed {k : Bytes} {c : StoredCredential} (h : m[k]? = some c) :
    (k, c.weight) ∈ m.toList.map fun item => (item.1, item.2.weight) :=
  List.mem_map.mpr ⟨(k, c), Std.ExtTreeMap.mem_toList_iff_getElem?_eq_some.mpr h, rfl⟩

/-- There is room in the file for the credential of a `put`. -/
def Operation.Fits (op : Operation) (store : CredentialStore) : Prop :=
  match op with
  | .put cred _ => store.stored.weight + cred.weight + envelopeOverhead ≤ maxStoreSize
  | _ => True

theorem Operation.change_weight {op : Operation} {store : CredentialStore} (hFits : op.Fits store)
    (hWeight : store.stored.weight + envelopeOverhead ≤ maxStoreSize)
    (h : op.change store = .ok m) : m.weight + envelopeOverhead ≤ maxStoreSize := by
  cases op with
  | put cred ownerUid =>
    obtain ⟨base, -, -, -, -, hSub, -, rfl⟩ := afterPut_ok h
    have hLe := Storage.weight_le (m := base.insert (hexEncode cred.id)
      { cred with ownerUid, creationOrder := store.generation + 1 })
      ((hexEncode cred.id, cred.weight) :: store.stored.toList.map fun item =>
        (item.1, item.2.weight)) (by
      intro k c hc
      rw [Std.ExtTreeMap.getElem?_insert] at hc
      split at hc
      · rename_i hk
        cases hc
        rw [← Std.LawfulEqCmp.eq_of_compare hk]
        exact List.mem_cons_self
      · exact List.mem_cons_of_mem _ (mem_listed (hSub k c hc)))
    rw [List.map_cons, List.sum_cons, Storage.weight_listed] at hLe
    have hRoom : store.stored.weight + cred.weight + envelopeOverhead ≤ maxStoreSize := hFits
    omega
  | erase credentialId ownerUid =>
    obtain ⟨_, -, h⟩ := bind_eq_ok.mp h
    cases h
    have hLe := Storage.weight_le (m := store.stored.erase (hexEncode credentialId)) _ (by
      intro k c hc
      rw [Std.ExtTreeMap.getElem?_erase] at hc
      split at hc
      · cases hc
      · exact mem_listed hc)
    rw [Storage.weight_listed] at hLe
    omega
  | incrementSigCount credId ownerUid =>
    obtain ⟨c, -, hIn, -, -, rfl⟩ := afterIncrement_ok h
    have hLe := Storage.weight_le
      (m := store.stored.insert (hexEncode credId) { c with signCount := c.signCount + 1 }) _ (by
      intro k c' hc'
      rw [Std.ExtTreeMap.getElem?_insert] at hc'
      split at hc'
      · rename_i hk
        cases hc'
        exact mem_listed (c := c) (Std.LawfulEqCmp.eq_of_compare hk ▸ hIn)
      · exact mem_listed hc')
    rw [Storage.weight_listed] at hLe
    omega
  | clear =>
    cases h
    decide

/-! ## The length of an envelope -/

/-- `dump` writes the compact text. -/
def Platform.DumpsCompact (P : Platform) : Prop :=
  ∀ items text, P.dump (storageDocument items) = some text → text = (storageDocument items).render

theorem length_encrypt {P : Platform} (hP : P.Lawful) {iv : Nonce} {plaintext e : Bytes}
    {generation : UInt64} (h : encrypt P iv plaintext generation = .ok e) :
    e.length = headerSize + plaintext.length + tagSize := by
  obtain ⟨-, rfl⟩ := encrypt_eq_ok h
  rw [List.length_append, List.length_append, length_envelopeHeader, hP.cipher_length,
    hP.tag_length]
  rfl

theorem length_envelope_le {P : Platform} (hP : P.Lawful) (hCompact : P.DumpsCompact)
    (hValid : m.Valid) {iv : Nonce} {text e : Bytes} {generation : UInt64}
    (hDump : P.dump (storageDocument (P.iterate m)) = some text)
    (hEncrypt : encrypt P iv text generation = .ok e) : e.length ≤ m.weight + envelopeOverhead := by
  have hItems : ∀ item ∈ P.iterate m, item.2.alg = -7 := by
    intro item hItem
    have hEntry : m[item.1]? = some item.2 :=
      Std.ExtTreeMap.mem_toList_iff_getElem?_eq_some.mp ((hP.iterate_perm m).mem_iff.mp hItem)
    exact (validateCredential_ok_iff.mp (hValid.credential _ _ hEntry)).2.2.2.1
  have hLength := length_storageDocument_le hItems
  rw [((hP.iterate_perm m).map fun item => item.2.weight).sum_eq, ← hCompact _ _ hDump] at hLength
  rw [length_encrypt hP hEncrypt, Storage.weight, envelopeOverhead]
  omega

end VAuth.Store
