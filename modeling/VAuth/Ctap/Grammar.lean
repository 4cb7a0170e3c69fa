import VAuth.Ctap.Decoding

/-!
# The grammar of requests

The parameters of MakeCredential and GetAssertion, as tables of fields: which key sets which
field, what its value may be and what the field holds without it. What the parsers read is what
the tables say, in the cursor's view (`makeCredential_parseRoot_eq`, `getAssertion_parseRoot_eq`).
-/

namespace VAuth.Ctap

open Store Format

/-! ## Maps inside a request -/

/-- A map with text keys. -/
abbrev IsTextMap {σ : Type} : Layout Bytes σ → View → Cbor → σ → Prop :=
  IsRecord Cbor.text (·.length ≤ maxEntityTextLength)

abbrev asTextMap {σ : Type} : Layout Bytes σ → Cbor → Option σ :=
  asRecord (asText maxEntityTextLength)

theorem asTextMap_eq {σ : Type} {L : Layout Bytes σ} (h : L.Lawful) (c : Cbor) (s : σ) :
    asTextMap L c = some s ↔ IsTextMap L .cursor c s :=
  asRecord_eq (fun _ _ => asText_eq) h

def credentialDescriptor : Layout Bytes PublicKeyCredentialDescriptor where
  fields := [
    .value (text "type") (·.type) (fun type d => { d with type }) []
      (asText maxEntityTextLength) fun _ => IsText maxEntityTextLength,
    .value (text "id") (·.id) (fun id d => { d with id }) []
      (asBytes maxCredentialIdLength) fun _ => IsBytes maxCredentialIdLength,
    .list (text "transports") (·.transports) (fun transports d => { d with transports })
      (asText maxTransportNameLength) fun _ => IsText maxTransportNameLength]
  required := [text "type", text "id"]
  valid d := d.type ≠ [] ∧ d.id ≠ []
  init := {}

theorem lawful_credentialDescriptor : credentialDescriptor.Lawful where
  keys := by decide
  sound := by
    simp only [credentialDescriptor, List.forall_mem_cons]
    exact ⟨Field.sound_value fun _ _ => asText_eq, Field.sound_value fun _ _ => asBytes_eq,
      Field.sound_list fun _ _ => asText_eq, nofun⟩
  get_put := by simp [credentialDescriptor]
  frame := by simp [credentialDescriptor]
  ext := by
    rintro ⟨type, id, transports⟩ ⟨type', id', transports'⟩ h
    obtain ⟨rfl, rfl, rfl⟩ : type = type' ∧ id = id' ∧ transports = transports' := by
      simpa [credentialDescriptor] using h
    rfl
  initial := by simp [credentialDescriptor]

theorem readCredentialDescriptor_eq :
    readCredentialDescriptor = takes (asTextMap credentialDescriptor) := by
  unfold readCredentialDescriptor
  refine readRecord_eq (L := credentialDescriptor) (fun key d => ?_) fun d seen rest => ?_
  · refine takes_assign_cons rfl (takes_map (readText_eq _) _) ?_
    refine takes_assign_cons rfl (takes_map (readBytes_eq _) _) ?_
    exact takes_assign_cons rfl (takes_map (readArray_eq (readText_eq _) _) _) takes_assign_nil
  · refine check_eq ?_
    simp [credentialDescriptor]
    grind

def relyingParty : Layout Bytes RelyingParty where
  fields := [
    .value (text "id") (·.id) (fun id rp => { rp with id }) []
      (asText maxRpIdLength) fun _ => IsText maxRpIdLength,
    .value (text "name") (·.name) (fun name rp => { rp with name }) []
      (asText maxEntityTextLength) fun _ => IsText maxEntityTextLength]
  required := [text "id"]
  valid rp := rp.id ≠ []
  init := {}

theorem lawful_relyingParty : relyingParty.Lawful where
  keys := by decide
  sound := by
    simp only [relyingParty, List.forall_mem_cons]
    exact ⟨Field.sound_value fun _ _ => asText_eq, Field.sound_value fun _ _ => asText_eq, nofun⟩
  get_put := by simp [relyingParty]
  frame := by simp [relyingParty]
  ext := by
    rintro ⟨id, name⟩ ⟨id', name'⟩ h
    obtain ⟨rfl, rfl⟩ : id = id' ∧ name = name' := by simpa [relyingParty] using h
    rfl
  initial := by simp [relyingParty]

theorem parseRp_eq : CTAPMakeCredentialRequest.parseRp = takes (asTextMap relyingParty) := by
  unfold CTAPMakeCredentialRequest.parseRp
  refine readRecord_eq (L := relyingParty) (fun key d => ?_) fun d seen rest => ?_
  · refine takes_assign_cons rfl (takes_map (readText_eq _) _) ?_
    exact takes_assign_cons rfl (takes_map (readText_eq _) _) takes_assign_nil
  · refine check_eq ?_
    simp [relyingParty]
    grind

def userEntity : Layout Bytes UserEntity where
  fields := [
    .value (text "id") (·.id) (fun id user => { user with id }) []
      (asBytes maxUserIdLength) fun _ => IsBytes maxUserIdLength,
    .value (text "name") (·.name) (fun name user => { user with name }) []
      (asText maxEntityTextLength) fun _ => IsText maxEntityTextLength,
    .value (text "displayName") (·.displayName) (fun displayName user => { user with displayName })
      [] (asText maxEntityTextLength) fun _ => IsText maxEntityTextLength]
  required := [text "id"]
  init := {}

theorem lawful_userEntity : userEntity.Lawful where
  keys := by decide
  sound := by
    simp only [userEntity, List.forall_mem_cons]
    exact ⟨Field.sound_value fun _ _ => asBytes_eq, Field.sound_value fun _ _ => asText_eq,
      Field.sound_value fun _ _ => asText_eq, nofun⟩
  get_put := by simp [userEntity]
  frame := by simp [userEntity]
  ext := by
    rintro ⟨id, name, displayName⟩ ⟨id', name', displayName'⟩ h
    obtain ⟨rfl, rfl, rfl⟩ : id = id' ∧ name = name' ∧ displayName = displayName' := by
      simpa [userEntity] using h
    rfl
  initial := by simp [userEntity]

theorem parseUser_eq : CTAPMakeCredentialRequest.parseUser = takes (asTextMap userEntity) := by
  unfold CTAPMakeCredentialRequest.parseUser
  refine readRecord_eq (L := userEntity) (fun key d => ?_) fun d seen rest => ?_
  · refine takes_assign_cons rfl (takes_map (readBytes_eq _) _) ?_
    refine takes_assign_cons rfl (takes_map (readText_eq _) _) ?_
    exact takes_assign_cons rfl (takes_map (readText_eq _) _) takes_assign_nil
  · refine check_eq ?_
    simp [userEntity]

def asClientDataHash (c : Cbor) : Option Bytes :=
  (asBytes clientDataHashLength c).bind fun hash =>
    if hash.length ≠ clientDataHashLength then none else some hash

def IsClientDataHash (c : Cbor) (hash : Bytes) : Prop :=
  c = .bytes hash ∧ hash.length = clientDataHashLength

theorem readClientDataHash_eq : readClientDataHash = takes asClientDataHash :=
  takes_guard (readBytes_eq clientDataHashLength) id

theorem asClientDataHash_eq {c : Cbor} {hash : Bytes} :
    asClientDataHash c = some hash ↔ IsClientDataHash c hash := by
  constructor
  · intro h
    obtain ⟨hash', hBytes, h⟩ := Option.bind_eq_some_iff.mp h
    by_cases hLength : hash'.length ≠ clientDataHashLength
    · rw [if_pos hLength] at h
      cases h
    · rw [if_neg hLength] at h
      cases h
      exact ⟨(asBytes_eq.mp hBytes).1, not_not.mp hLength⟩
  · rintro ⟨hBytes, hLength⟩
    unfold asClientDataHash
    rw [asBytes_eq.mpr ⟨hBytes, hLength.le⟩]
    exact if_neg (not_not.mpr hLength)

/-- The algorithm as the parser records it. -/
def asAlgorithm (c : Cbor) : Option Int32 :=
  (asInt c).bind fun algorithm =>
    if algorithm.toInt < -2147483648 ∨ algorithm.toInt > 2147483647 then none
    else some algorithm.toInt32

/-- An integer, as `cbor_value_get_int64` returns it, that is within `int`. -/
def IsAlgorithm (c : Cbor) (alg : Int32) : Prop :=
  ∃ algorithm, asInt c = some algorithm ∧ algorithm.toInt = alg.toInt

theorem toInt32_of_within {n : Int64} (hLow : -2147483648 ≤ n.toInt)
    (hHigh : n.toInt ≤ 2147483647) : n.toInt32.toInt = n.toInt := by
  rw [Int64.toInt_toInt32]
  exact Int.bmod_eq_of_le (by omega) (by omega)

theorem asAlgorithm_eq {c : Cbor} {alg : Int32} : asAlgorithm c = some alg ↔ IsAlgorithm c alg := by
  constructor
  · intro h
    obtain ⟨algorithm, hInt, h⟩ := Option.bind_eq_some_iff.mp h
    by_cases hRange : algorithm.toInt < -2147483648 ∨ algorithm.toInt > 2147483647
    · rw [if_pos hRange] at h
      cases h
    · rw [if_neg hRange] at h
      cases h
      exact ⟨algorithm, hInt, (toInt32_of_within (by omega) (by omega)).symm⟩
  · rintro ⟨algorithm, hInt, hSame⟩
    have hLow := Int32.le_toInt alg
    have hHigh := Int32.toInt_lt alg
    have hRange : ¬ (algorithm.toInt < -2147483648 ∨ algorithm.toInt > 2147483647) := by omega
    unfold asAlgorithm
    rw [hInt]
    show (if _ then none else some algorithm.toInt32) = _
    rw [if_neg hRange]
    refine congrArg some (Int32.toInt_inj.mp ?_)
    rw [toInt32_of_within (by omega) (by omega), hSame]

def pubKeyCredParam : Layout Bytes PubKeyCredParam where
  fields := [
    .value (text "type") (·.type) (fun type p => { p with type }) []
      (asText maxEntityTextLength) fun _ => IsText maxEntityTextLength,
    .value (text "alg") (·.alg) (fun alg p => { p with alg }) 0 asAlgorithm fun _ => IsAlgorithm]
  required := [text "type", text "alg"]
  init := {}

theorem lawful_pubKeyCredParam : pubKeyCredParam.Lawful where
  keys := by decide
  sound := by
    simp only [pubKeyCredParam, List.forall_mem_cons]
    exact ⟨Field.sound_value fun _ _ => asText_eq, Field.sound_value fun _ _ => asAlgorithm_eq,
      nofun⟩
  get_put := by simp [pubKeyCredParam]
  frame := by simp [pubKeyCredParam]
  ext := by
    rintro ⟨type, alg⟩ ⟨type', alg'⟩ h
    obtain ⟨rfl, rfl⟩ : type = type' ∧ alg = alg' := by simpa [pubKeyCredParam] using h
    rfl
  initial := by simp [pubKeyCredParam]

theorem parsePubkeyParam_eq :
    CTAPMakeCredentialRequest.parsePubkeyParam = takes (asTextMap pubKeyCredParam) := by
  unfold CTAPMakeCredentialRequest.parsePubkeyParam
  refine readRecord_eq (L := pubKeyCredParam) (fun key p => ?_) fun d seen rest => ?_
  · refine takes_assign_cons rfl (takes_map (readText_eq _) _) ?_
    refine takes_assign_cons rfl ?_ takes_assign_nil
    refine (takes_guard readInt_eq _).trans (congrArg takes (funext fun c => ?_))
    show _ = ((asInt c).bind _).map fun alg : Int32 => { p with alg }
    rw [Option.map_bind]
    refine congrArg (Option.bind (asInt c)) (funext fun algorithm => ?_)
    rw [Function.comp_apply]
    split <;> rfl
  · refine check_eq ?_
    simp [pubKeyCredParam]
    grind

/-- Unsupported extensions: members that may be anything. -/
def extensions : Layout Bytes Unit where
  fields := []
  init := ()

theorem lawful_extensions : extensions.Lawful where
  keys := List.nodup_nil
  sound := nofun
  get_put := nofun
  frame := nofun
  ext _ _ _ := rfl
  initial := nofun

theorem readExtensions_eq : readExtensions = takes (asTextMap extensions) := by
  refine readRecord_eq (L := extensions) (fun key _ => ?_) fun _ seen rest => rfl
  exact skip_eq

/-- The options, two that are recorded and one that is only noted. -/
def optionFlags (first second noted : Bytes) (default : Bool) :
    Layout Bytes (Bool × Bool × Bool) where
  fields := [
    .value first (·.1) (fun x o => (x, o.2)) default asBool fun _ => IsBool,
    .value second (·.2.1) (fun x o => (o.1, x, o.2.2)) false asBool fun _ => IsBool,
    .noted noted (·.2.2) (fun x o => (o.1, o.2.1, x)) asBool fun _ => IsBool]
  init := (default, false, false)

theorem lawful_optionFlags {first second noted : Bytes} {default : Bool}
    (hKeys : [first, second, noted].Nodup) : (optionFlags first second noted default).Lawful where
  keys := hKeys
  sound := by
    simp only [optionFlags, List.forall_mem_cons]
    exact ⟨Field.sound_value fun _ _ => asBool_eq, Field.sound_value fun _ _ => asBool_eq,
      Field.sound_noted fun _ _ => asBool_eq, nofun⟩
  get_put := by simp [optionFlags]
  frame := by simp [optionFlags]
  ext := by
    rintro ⟨a, b, n⟩ ⟨a', b', n'⟩ h
    obtain ⟨rfl, rfl, rfl⟩ : a = a' ∧ b = b' ∧ n = n' := by
      simpa [optionFlags] using h
    rfl
  initial := by simp [optionFlags]

/-! ## MakeCredential -/

section MakeCredential

open CTAPMakeCredentialRequest

/-- `rk` and `uv`, and whether there was an `up`. -/
def makeCredentialOptions : Layout Bytes (Bool × Bool × Bool) :=
  optionFlags (text "rk") (text "uv") (text "up") false

def CTAPMakeCredentialRequest.options (r : CTAPMakeCredentialRequest) : Bool × Bool × Bool :=
  (r.rk, r.uv, r.upOptionPresent)

def CTAPMakeCredentialRequest.withOptions (o : Bool × Bool × Bool)
    (r : CTAPMakeCredentialRequest) : CTAPMakeCredentialRequest :=
  { r with rk := o.1, uv := o.2.1, upOptionPresent := o.2.2 }

theorem makeCredential_parseOptions_eq (r : CTAPMakeCredentialRequest) :
    parseOptions r = takes fun c =>
      (asTextMap { makeCredentialOptions with init := r.options } c).map (withOptions · r) := by
  refine readPart_eq (L := makeCredentialOptions) options withOptions (fun _ _ => rfl)
    (fun _ => rfl) (fun _ _ _ => rfl) rfl (fun _ => rfl) (fun key r => ?_) r
  refine takes_assign_cons rfl (takes_map readBool_eq _) ?_
  refine takes_assign_cons rfl (takes_map readBool_eq _) ?_
  exact takes_assign_cons rfl
    (takes_noted readBool_eq fun upOptionPresent => { r with upOptionPresent }) takes_assign_nil

/-- The parameters of MakeCredential. -/
def makeCredential : Layout UInt64 CTAPMakeCredentialRequest where
  fields := [
    .value 1 (·.clientDataHash) (fun clientDataHash r => { r with clientDataHash }) []
      asClientDataHash fun _ => IsClientDataHash,
    .value 2 (·.rp) (fun rp r => { r with rp }) {}
      (asTextMap relyingParty) (IsTextMap relyingParty),
    .value 3 (·.user) (fun user r => { r with user }) {}
      (asTextMap userEntity) (IsTextMap userEntity),
    .list 4 (·.publicKeyCredParams) (fun publicKeyCredParams r => { r with publicKeyCredParams })
      (asTextMap pubKeyCredParam) (IsTextMap pubKeyCredParam),
    .list 5 (·.excludeList) (fun excludeList r => { r with excludeList })
      (asTextMap credentialDescriptor) (IsTextMap credentialDescriptor),
    .value 6 (fun _ => ()) (fun _ r => r) () (asTextMap extensions) (IsTextMap extensions),
    .part 7 (·.options) withOptions maxEntityTextLength makeCredentialOptions,
    .noted 8 (·.pinAuthPresent) (fun pinAuthPresent r => { r with pinAuthPresent })
      (asBytes maxPinAuthLength) fun _ => IsBytes maxPinAuthLength,
    .noted 9 (·.pinProtocolPresent) (fun pinProtocolPresent r => { r with pinProtocolPresent })
      asUint fun _ c n => c = .uint n]
  required := [1, 2, 3, 4]
  init := {}

theorem lawful_makeCredential : makeCredential.Lawful where
  keys := by decide
  sound := by
    simp only [makeCredential, List.forall_mem_cons]
    exact ⟨Field.sound_value fun _ _ => asClientDataHash_eq,
      Field.sound_value (asTextMap_eq lawful_relyingParty),
      Field.sound_value (asTextMap_eq lawful_userEntity),
      Field.sound_list (asTextMap_eq lawful_pubKeyCredParam),
      Field.sound_list (asTextMap_eq lawful_credentialDescriptor),
      Field.sound_value (asTextMap_eq lawful_extensions),
      Field.sound_part (lawful_optionFlags (by decide)) fun _ => rfl,
      Field.sound_noted fun _ _ => asBytes_eq, Field.sound_noted fun _ _ => asUint_eq, nofun⟩
  get_put := by simp [makeCredential, withOptions, options]
  frame := by simp [makeCredential, withOptions, options]
  ext := by
    intro r r' h
    cases r
    cases r'
    simp only [makeCredential, Field.value, Field.list, Field.noted, Field.part, options,
      List.forall_mem_cons, Prod.mk.injEq] at h
    obtain ⟨rfl, rfl, rfl, rfl, rfl, -, ⟨rfl, rfl, rfl⟩, rfl, rfl, -⟩ := h
    rfl
  initial := by simp [makeCredential, options, makeCredentialOptions, optionFlags]

theorem makeCredential_parseParameter_eq (key : UInt64) (r : CTAPMakeCredentialRequest) :
    parseParameter key r = takes (assign makeCredential.fields key · r) := by
  unfold parseParameter
  split
  case h_1 h =>
    obtain rfl : key = 1 := UInt64.toNat_inj.mp h
    exact takes_map readClientDataHash_eq _
  case h_2 h =>
    obtain rfl : key = 2 := UInt64.toNat_inj.mp h
    exact takes_map parseRp_eq _
  case h_3 h =>
    obtain rfl : key = 3 := UInt64.toNat_inj.mp h
    exact takes_map parseUser_eq _
  case h_4 h =>
    obtain rfl : key = 4 := UInt64.toNat_inj.mp h
    exact takes_map (readArray_eq parsePubkeyParam_eq _) _
  case h_5 h =>
    obtain rfl : key = 5 := UInt64.toNat_inj.mp h
    exact takes_map (readArray_eq readCredentialDescriptor_eq _) _
  case h_6 h =>
    obtain rfl : key = 6 := UInt64.toNat_inj.mp h
    exact takes_map readExtensions_eq _
  case h_7 h =>
    obtain rfl : key = 7 := UInt64.toNat_inj.mp h
    exact makeCredential_parseOptions_eq r
  case h_8 h =>
    obtain rfl : key = 8 := UInt64.toNat_inj.mp h
    exact takes_noted (readBytes_eq _) fun pinAuthPresent => { r with pinAuthPresent }
  case h_9 h =>
    obtain rfl : key = 9 := UInt64.toNat_inj.mp h
    exact takes_noted readUint_eq fun pinProtocolPresent => { r with pinProtocolPresent }
  case h_10 h₁ h₂ h₃ h₄ h₅ h₆ h₇ h₈ h₉ =>
    refine takes_assign_unknown ?_
    simp only [makeCredential, Field.value, Field.list, Field.noted, Field.part,
      List.forall_mem_cons]
    refine ⟨?_, ?_, ?_, ?_, ?_, ?_, ?_, ?_, ?_, nofun⟩ <;> rintro rfl <;> contradiction

end MakeCredential

/-! ## GetAssertion -/

section GetAssertion

open CTAPGetAssertionRequest

/-- `up` and `uv`, and whether there was an `rk`. -/
def getAssertionOptions : Layout Bytes (Bool × Bool × Bool) :=
  optionFlags (text "up") (text "uv") (text "rk") true

def AssertionParameters.options (r : AssertionParameters) : Bool × Bool × Bool :=
  (r.up, r.uv, r.rkOptionPresent)

def AssertionParameters.withOptions (o : Bool × Bool × Bool) (r : AssertionParameters) :
    AssertionParameters :=
  { r with up := o.1, uv := o.2.1, rkOptionPresent := o.2.2 }

open AssertionParameters

theorem getAssertion_parseOptions_eq (r : AssertionParameters) : parseOptions r = takes fun c =>
      (asTextMap { getAssertionOptions with init := r.options } c).map (withOptions · r) := by
  refine readPart_eq (L := getAssertionOptions) options withOptions (fun _ _ => rfl)
    (fun _ => rfl) (fun _ _ _ => rfl) rfl (fun _ => rfl) (fun key r => ?_) r
  refine takes_assign_cons rfl (takes_map readBool_eq _) ?_
  refine takes_assign_cons rfl (takes_map readBool_eq _) ?_
  exact takes_assign_cons rfl
    (takes_noted readBool_eq fun rkOptionPresent => { r with rkOptionPresent }) takes_assign_nil

def asRpId (c : Cbor) : Option Bytes :=
  (asText maxRpIdLength c).bind fun rpId => if rpId = [] then none else some rpId

def IsRpId (c : Cbor) (rpId : Bytes) : Prop := IsText maxRpIdLength c rpId ∧ rpId ≠ []

theorem parseRpId_eq : parseRpId = takes asRpId := takes_guard (readText_eq maxRpIdLength) id

theorem asRpId_eq {c : Cbor} {rpId : Bytes} : asRpId c = some rpId ↔ IsRpId c rpId := by
  constructor
  · intro h
    obtain ⟨rpId', hText, h⟩ := Option.bind_eq_some_iff.mp h
    by_cases hEmpty : rpId' = []
    · rw [if_pos hEmpty] at h
      cases h
    · rw [if_neg hEmpty] at h
      cases h
      exact ⟨asText_eq.mp hText, hEmpty⟩
  · rintro ⟨hText, hNonempty⟩
    unfold asRpId
    rw [asText_eq.mpr hText]
    exact if_neg hNonempty

/-- The parameters of GetAssertion. -/
def getAssertion : Layout UInt64 AssertionParameters where
  fields := [
    .value 1 (·.rpId) (fun rpId r => { r with rpId }) [] asRpId fun _ => IsRpId,
    .value 2 (·.clientDataHash) (fun clientDataHash r => { r with clientDataHash }) []
      asClientDataHash fun _ => IsClientDataHash,
    .list 3 (·.allowList) (fun allowList r => { r with allowList })
      (asTextMap credentialDescriptor) (IsTextMap credentialDescriptor),
    .value 4 (fun _ => ()) (fun _ r => r) () (asTextMap extensions) (IsTextMap extensions),
    .part 5 (·.options) withOptions maxEntityTextLength getAssertionOptions,
    .noted 6 (·.pinAuthPresent) (fun pinAuthPresent r => { r with pinAuthPresent })
      (asBytes maxPinAuthLength) fun _ => IsBytes maxPinAuthLength,
    .noted 7 (·.pinProtocolPresent) (fun pinProtocolPresent r => { r with pinProtocolPresent })
      asUint fun _ c n => c = .uint n]
  required := [1, 2]
  init := {}

theorem lawful_getAssertion : getAssertion.Lawful where
  keys := by decide
  sound := by
    simp only [getAssertion, List.forall_mem_cons]
    exact ⟨Field.sound_value fun _ _ => asRpId_eq, Field.sound_value fun _ _ => asClientDataHash_eq,
      Field.sound_list (asTextMap_eq lawful_credentialDescriptor),
      Field.sound_value (asTextMap_eq lawful_extensions),
      Field.sound_part (lawful_optionFlags (by decide)) fun _ => rfl,
      Field.sound_noted fun _ _ => asBytes_eq, Field.sound_noted fun _ _ => asUint_eq, nofun⟩
  get_put := by simp [getAssertion, withOptions, options]
  frame := by simp [getAssertion, withOptions, options]
  ext := by
    intro r r' h
    cases r
    cases r'
    simp only [getAssertion, Field.value, Field.list, Field.noted, Field.part, options,
      List.forall_mem_cons, Prod.mk.injEq] at h
    obtain ⟨rfl, rfl, rfl, -, ⟨rfl, rfl, rfl⟩, rfl, rfl, -⟩ := h
    rfl
  initial := by simp [getAssertion, options, getAssertionOptions, optionFlags]

theorem getAssertion_parseParameter_eq (key : UInt64) (r : AssertionParameters) :
    parseParameter key r = takes (assign getAssertion.fields key · r) := by
  unfold parseParameter
  split
  case h_1 h =>
    obtain rfl : key = 1 := UInt64.toNat_inj.mp h
    exact takes_map parseRpId_eq _
  case h_2 h =>
    obtain rfl : key = 2 := UInt64.toNat_inj.mp h
    exact takes_map readClientDataHash_eq _
  case h_3 h =>
    obtain rfl : key = 3 := UInt64.toNat_inj.mp h
    exact takes_map (readArray_eq readCredentialDescriptor_eq _) _
  case h_4 h =>
    obtain rfl : key = 4 := UInt64.toNat_inj.mp h
    exact takes_map readExtensions_eq _
  case h_5 h =>
    obtain rfl : key = 5 := UInt64.toNat_inj.mp h
    exact getAssertion_parseOptions_eq r
  case h_6 h =>
    obtain rfl : key = 6 := UInt64.toNat_inj.mp h
    exact takes_noted (readBytes_eq _) fun pinAuthPresent => { r with pinAuthPresent }
  case h_7 h =>
    obtain rfl : key = 7 := UInt64.toNat_inj.mp h
    exact takes_noted readUint_eq fun pinProtocolPresent => { r with pinProtocolPresent }
  case h_8 h₁ h₂ h₃ h₄ h₅ h₆ h₇ =>
    refine takes_assign_unknown ?_
    simp only [getAssertion, Field.value, Field.list, Field.noted, Field.part, List.forall_mem_cons]
    refine ⟨?_, ?_, ?_, ?_, ?_, ?_, ?_, nofun⟩ <;> rintro rfl <;> contradiction

end GetAssertion

/-! ## Requests -/

/-- A map with integer keys. -/
abbrev IsRequest {σ : Type} : Layout UInt64 σ → View → Cbor → σ → Prop :=
  IsRecord Cbor.uint fun _ => True

theorem asUint_key (c : Cbor) (k : UInt64) : asUint c = some k ↔ c = .uint k ∧ True :=
  asUint_eq.trans (and_true _).symm.to_iff

theorem asRequest_eq {σ : Type} {L : Layout UInt64 σ} (h : L.Lawful) {c : Cbor} {s : σ} :
    asRecord asUint L c = some s ↔ IsRequest L .cursor c s :=
  asRecord_eq asUint_key h

theorem makeCredential_parseRoot_eq {root : Cbor} {r : CTAPMakeCredentialRequest} :
    parseRoot CTAPMakeCredentialRequest.parseParameter [1, 2, 3, 4] {} root = some r ↔
      IsRequest makeCredential .cursor root r := by
  have hRoot : parseRoot CTAPMakeCredentialRequest.parseParameter [1, 2, 3, 4] {} root =
      asRecord asUint makeCredential root :=
    parseRoot_eq makeCredential_parseParameter_eq (fun _ => rfl) root
  rw [hRoot]
  exact asRequest_eq lawful_makeCredential

theorem getAssertion_parseRoot_eq {root : Cbor} {r : AssertionParameters} :
    parseRoot CTAPGetAssertionRequest.parseParameter [1, 2] {} root = some r ↔
      IsRequest getAssertion .cursor root r := by
  have hRoot : parseRoot CTAPGetAssertionRequest.parseParameter [1, 2] {} root =
      asRecord asUint getAssertion root :=
    parseRoot_eq getAssertion_parseParameter_eq (fun _ => rfl) root
  rw [hRoot]
  exact asRequest_eq lawful_getAssertion

end VAuth.Ctap
