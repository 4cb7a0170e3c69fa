import Mathlib.Data.List.Induction
import Mathlib.Data.List.Infix
import VAuth.Store.Query

/-!
# The credential commands of vauthctl

`print_credentials` prints relying-party and user texts that came from the network on the
terminal of an administrator; `decode_credential_id` reads the id of a credential to erase. The
output is the sequence of its bytes.

`terminal_safe` looks at single bytes, so it misses the control characters that UTF-8 writes with
two bytes.
-/

namespace VAuth.Vauthctl

open Store

/-! ## The printed table -/

def ownerWidth : Nat := 8

def rpWidth : Nat := 32

def userWidth : Nat := 24

def typeWidth : Nat := 18

def terminalSafe (input : Bytes) : Bytes :=
  input.map fun byte => if byte < 0x20 ∨ byte = 0x7f then 63 else byte

def fit (column : Bytes) (width : Nat) : Bytes :=
  if column.length ≤ width then column
  else if width ≤ 3 then column.take width
  else column.take (width - 3) ++ text "..."

/-- `std::left << std::setw(width) << column`. -/
def setw (width : Nat) (column : Bytes) : Bytes :=
  column ++ List.replicate (width - column.length) 32

def decimal (n : UInt32) : Bytes := text (toString n.toNat)

/-- `vauth::log::colorize` with `Color::red`. -/
def colorizeRed (message : Bytes) : Bytes :=
  27 :: text "[31m" ++ message ++ 27 :: text "[0m"

def dashes (width : Nat) : Bytes := List.replicate (width - 1) 45 ++ [32]

def header : Bytes :=
  setw ownerWidth (text "OWNER") ++ setw rpWidth (text "RP ID") ++ setw userWidth (text "USER") ++
    setw typeWidth (text "TYPE") ++ text "CREDENTIAL ID" ++ [10] ++
    dashes ownerWidth ++ dashes rpWidth ++ dashes userWidth ++ dashes typeWidth ++
    text "-------------" ++ [10]

def shownUser (credential : CredentialSummary) : Bytes :=
  if credential.userDisplayName.isEmpty then credential.userName else credential.userDisplayName

def rpColumn (credential : CredentialSummary) : Bytes :=
  fit (terminalSafe credential.rpId) (rpWidth - 1)

def userColumn (credential : CredentialSummary) : Bytes :=
  fit (terminalSafe (shownUser credential)) (userWidth - 1)

def row (credential : CredentialSummary) : Bytes :=
  setw ownerWidth (decimal credential.ownerUid) ++ setw rpWidth (rpColumn credential) ++
    setw userWidth (userColumn credential) ++
    setw typeWidth (text (if credential.discoverable then "discoverable" else "non-discoverable")) ++
    hexEncode credential.id ++ [10]

/-- The lines that name the filters. -/
def filterLines (ownerUid : Option UInt32) (rp : Option Bytes) : Bytes :=
  (ownerUid.elim [] fun uid => text "Filtering by owner UID = " ++ decimal uid ++ [10]) ++
    rp.elim [] fun id => text "Filtering by Relying Party ID = " ++ terminalSafe id ++ [10]

/-- What is printed when no credential matches. -/
def noCredentials (ownerUid : Option UInt32) (rp : Option Bytes) : Bytes :=
  colorizeRed (text "No credentials" ++
    (rp.elim [] fun id => text " with Relying Party ID: " ++ terminalSafe id) ++
    (if ownerUid.isSome ∧ rp.isSome then text " and" else []) ++
    (ownerUid.elim [] fun uid => text " with Owner UID: " ++ decimal uid) ++
    text " available" ++ [10])

/-- One round of the loop of `print_credentials`, on the output and the count. -/
def printCredential (ownerUid : Option UInt32) (rp : Option Bytes) (printed : Bytes × Nat)
    (credential : CredentialSummary) : Bytes × Nat :=
  if rp.any (credential.rpId != ·) then printed
  else if ownerUid.any (credential.ownerUid != ·) then printed
  else (printed.1 ++ (if printed.2 = 0 then header else []) ++ row credential, printed.2 + 1)

def printCredentials (credentials : List CredentialSummary) (ownerUid : Option UInt32)
    (rp : Option Bytes) : Bytes :=
  let (output, count) :=
    credentials.foldl (printCredential ownerUid rp) (filterLines ownerUid rp, 0)
  if count ≠ 0 then output else output ++ noCredentials ownerUid rp

/-! ## The rows -/

/-- The credential passes both filters. -/
def selected (ownerUid : Option UInt32) (rp : Option Bytes) (credential : CredentialSummary) :
    Bool :=
  !rp.any (credential.rpId != ·) && !ownerUid.any (credential.ownerUid != ·)

theorem selected_iff {ownerUid : Option UInt32} {rp : Option Bytes}
    {credential : CredentialSummary} : selected ownerUid rp credential = true ↔
      (∀ id, rp = some id → credential.rpId = id) ∧
      ∀ uid, ownerUid = some uid → credential.ownerUid = uid := by
  cases rp <;> cases ownerUid <;> simp [selected]

/-- The table of a list of matches, without its header if it was already printed. -/
def table (count : Nat) (matching : List CredentialSummary) : Bytes :=
  (if count = 0 ∧ matching ≠ [] then header else []) ++ matching.flatMap row

theorem foldl_printCredential (credentials : List CredentialSummary) (ownerUid : Option UInt32)
    (rp : Option Bytes) (output : Bytes) (count : Nat) :
    credentials.foldl (printCredential ownerUid rp) (output, count) =
      (output ++ table count (credentials.filter (selected ownerUid rp)),
        count + (credentials.filter (selected ownerUid rp)).length) := by
  induction credentials generalizing output count with
  | nil => simp [table]
  | cons credential rest ih =>
    rw [List.foldl_cons]
    by_cases hSelected : selected ownerUid rp credential = true
    · have hRound : printCredential ownerUid rp (output, count) credential =
          (output ++ (if count = 0 then header else []) ++ row credential, count + 1) := by
        simp only [selected, Bool.and_eq_true, Bool.not_eq_true'] at hSelected
        unfold printCredential
        rw [if_neg (by simp [hSelected.1]), if_neg (by simp [hSelected.2])]
      rw [hRound, ih, List.filter_cons_of_pos hSelected]
      refine Prod.ext ?_ ?_
      · simp [table]
      · simp only [List.length_cons]
        omega
    · have hRound : printCredential ownerUid rp (output, count) credential = (output, count) := by
        unfold printCredential
        by_cases hRp : rp.any (credential.rpId != ·) = true
        · rw [if_pos hRp]
        · rw [if_neg hRp, if_pos]
          simp only [selected, Bool.and_eq_true, Bool.not_eq_true', not_and] at hSelected
          simpa using hSelected (by simpa using hRp)
      rw [hRound, ih, List.filter_cons_of_neg hSelected]

theorem printCredentials_eq (credentials : List CredentialSummary) (ownerUid : Option UInt32)
    (rp : Option Bytes) : printCredentials credentials ownerUid rp = filterLines ownerUid rp ++
      if credentials.filter (selected ownerUid rp) = [] then noCredentials ownerUid rp
      else header ++ (credentials.filter (selected ownerUid rp)).flatMap row := by
  unfold printCredentials
  rw [foldl_printCredential]
  by_cases hNone : credentials.filter (selected ownerUid rp) = []
  · simp [hNone, table]
  · have hCount : (credentials.filter (selected ownerUid rp)).length ≠ 0 := by
      simpa using hNone
    simp only [Nat.zero_add]
    rw [if_pos hCount, if_neg hNone, table, if_pos ⟨rfl, hNone⟩]

/-! ## Control characters in the columns -/

/-- One of U+0000 to U+001F, or U+007F. -/
def IsControl (byte : UInt8) : Prop := byte < 0x20 ∨ byte = 0x7f

instance : DecidablePred IsControl := fun _ => inferInstanceAs (Decidable (_ ∨ _))

/-- The text has one of U+0080 to U+009F in its UTF-8 encoding. -/
def HasC1 (bytes : Bytes) : Prop :=
  ∃ byte : UInt8, 0x80 ≤ byte ∧ byte ≤ 0x9f ∧ [0xc2, byte] <:+: bytes

variable {width : Nat} {byte : UInt8}

theorem not_isControl_terminalSafe {input : Bytes} (h : byte ∈ terminalSafe input) :
    ¬ IsControl byte := by
  obtain ⟨b, _, rfl⟩ := List.mem_map.mp h
  by_cases hControl : b < 0x20 ∨ b = 0x7f
  · rw [if_pos hControl]
    decide
  · rw [if_neg hControl]
    exact hControl

theorem safe_eq_iff {b : UInt8} (hByte : 0x80 ≤ byte) :
    (if b < 0x20 ∨ b = 0x7f then 63 else b) = byte ↔ b = byte := by
  by_cases hControl : b < 0x20 ∨ b = 0x7f
  · have hOther : b ≠ byte := by
      rintro rfl
      rcases hControl with hLow | rfl
      · exact absurd (UInt8.le_trans hByte (UInt8.le_of_lt hLow)) (by decide)
      · exact absurd hByte (by decide)
    rw [if_pos hControl]
    refine ⟨fun h => ?_, fun h => absurd h hOther⟩
    subst h
    exact absurd hByte (by decide)
  · rw [if_neg hControl]

theorem hasC1_terminalSafe {input : Bytes} : HasC1 (terminalSafe input) ↔ HasC1 input := by
  constructor
  · rintro ⟨byte, hLow, hHigh, before, after, hSplit⟩
    obtain ⟨front, after', hFront, hHead, -⟩ := List.append_eq_map_iff.mp hSplit
    obtain ⟨before', pair, rfl, -, hPair⟩ := List.append_eq_map_iff.mp hHead.symm
    obtain ⟨b, tail, rfl, hb, hTail⟩ := List.map_eq_cons_iff.mp hPair
    obtain ⟨b', end', rfl, hb', hEnd⟩ := List.map_eq_cons_iff.mp hTail
    obtain rfl := List.map_eq_nil_iff.mp hEnd
    refine ⟨byte, hLow, hHigh, before', after', ?_⟩
    rw [hFront, (safe_eq_iff (by decide)).mp hb, (safe_eq_iff hLow).mp hb']
  · rintro ⟨byte, hLow, hHigh, hInfix⟩
    have hPair : terminalSafe [0xc2, byte] = [0xc2, byte] := by
      simp only [terminalSafe, List.map_cons, List.map_nil, (safe_eq_iff hLow).mpr rfl]
      rfl
    exact ⟨byte, hLow, hHigh, hPair ▸ hInfix.map _⟩

/-- A pair is not completed by what follows. -/
theorem infix_of_append {a b : UInt8} {left right : Bytes} (hb : b ∉ right)
    (h : [a, b] <:+: left ++ right) : [a, b] <:+: left := by
  obtain ⟨before, after, hSplit⟩ := h
  rcases List.append_eq_append_iff.mp hSplit with ⟨extra, hLeft, -⟩ | ⟨extra, hHead, hRight⟩
  · exact ⟨before, extra, hLeft.symm⟩
  · cases extra using List.reverseRecOn with
    | nil => exact ⟨before, [], by simpa using hHead⟩
    | append_singleton extra last =>
      have hLast : last = b := by
        have hEnd := congrArg List.getLast? hHead
        simpa using hEnd.symm
      exact absurd (by rw [hRight, hLast]; simp) hb

/-- The bytes of a text that a column of the width shows. -/
def kept (source : Bytes) (width : Nat) : Bytes :=
  if source.length ≤ width then source else source.take (width - 3)

/-- What stands behind them. -/
def ellipsis (source : Bytes) (width : Nat) : Bytes :=
  if source.length ≤ width then [] else text "..."

theorem fit_terminalSafe (source : Bytes) (hWidth : 3 < width) :
    fit (terminalSafe source) width = terminalSafe (kept source width) ++ ellipsis source width := by
  have hLength : (terminalSafe source).length = source.length := List.length_map _
  unfold fit kept ellipsis
  rw [hLength]
  by_cases hShort : source.length ≤ width
  · simp only [if_pos hShort, List.append_nil]
  · simp only [if_neg hShort, if_neg (Nat.not_le.mpr hWidth), terminalSafe, List.map_take]

theorem mem_ellipsis {source : Bytes} (h : byte ∈ ellipsis source width) : byte = 46 := by
  unfold ellipsis at h
  split at h
  · cases h
  · have hDots : text "..." = List.replicate 3 46 := by decide
    exact List.eq_of_mem_replicate (hDots ▸ h)

theorem length_kept (source : Bytes) (hWidth : 3 < width) :
    (kept source width).length + (ellipsis source width).length ≤ width := by
  unfold kept ellipsis
  by_cases hShort : source.length ≤ width
  · rw [if_pos hShort, if_pos hShort]
    exact hShort
  · have hDots : (text "...").length = 3 := by decide
    rw [if_neg hShort, if_neg hShort, List.length_take, hDots]
    omega

theorem hasC1_append_ellipsis {bytes source : Bytes} :
    HasC1 (bytes ++ ellipsis source width) ↔ HasC1 bytes := by
  constructor
  · rintro ⟨byte, hLow, hHigh, hInfix⟩
    refine ⟨byte, hLow, hHigh, infix_of_append (fun hMem => ?_) hInfix⟩
    rw [mem_ellipsis hMem] at hLow
    exact absurd hLow (by decide)
  · rintro ⟨byte, hLow, hHigh, hInfix⟩
    exact ⟨byte, hLow, hHigh, hInfix.trans ( List.prefix_append _ _).isInfix⟩

/-- The column that shows a text: what it is made of, and when a control character is in it. -/
structure Column (source column : Bytes) (width : Nat) : Prop where
  shows : column = (kept source width).map (fun byte => if IsControl byte then 63 else byte) ++
    ellipsis source width
  length : column.length ≤ width
  control : ∀ byte ∈ column, ¬ IsControl byte
  c1 : HasC1 column ↔ HasC1 (kept source width)

theorem column_fit (source : Bytes) (hWidth : 3 < width) :
    Column source (fit (terminalSafe source) width) width where
  shows := fit_terminalSafe source hWidth
  length := by
    rw [fit_terminalSafe source hWidth, List.length_append, terminalSafe, List.length_map]
    exact length_kept source hWidth
  control := by
    intro byte hMem
    rw [fit_terminalSafe source hWidth] at hMem
    rcases List.mem_append.mp hMem with hMem | hMem
    · exact not_isControl_terminalSafe hMem
    · rw [mem_ellipsis hMem]
      decide
  c1 := by
    rw [fit_terminalSafe source hWidth, hasC1_append_ellipsis, hasC1_terminalSafe]

/-- The line of a credential. -/
def IsRow (credential : CredentialSummary) (line : Bytes) : Prop :=
  ∃ rpId user, Column credential.rpId rpId 31 ∧ Column (shownUser credential) user 23 ∧
    line = setw 8 (decimal credential.ownerUid) ++ setw 32 rpId ++ setw 24 user ++
      setw 18 (text (if credential.discoverable then "discoverable" else "non-discoverable")) ++
      hexEncode credential.id ++ [10]

theorem isRow_row (credential : CredentialSummary) : IsRow credential (row credential) :=
  ⟨rpColumn credential, userColumn credential, column_fit credential.rpId (by decide),
    column_fit (shownUser credential) (by decide), rfl⟩

/-- **Listed credentials and the terminal.** The printed rows are those of the credentials that
pass both filters, in the order of the list. Their columns are short enough and have no control
character, except for one of U+0080 to U+009F in the bytes of the text that the column shows. -/
theorem listing_terminal_safe (credentials : List CredentialSummary) (ownerUid : Option UInt32)
    (rp : Option Bytes) :
    (∃ rows, List.Forall₂ IsRow (credentials.filter (selected ownerUid rp)) rows ∧
      printCredentials credentials ownerUid rp = filterLines ownerUid rp ++
        if rows = [] then noCredentials ownerUid rp else header ++ rows.flatten) ∧
    ∀ credential, selected ownerUid rp credential = true ↔
      (∀ id, rp = some id → credential.rpId = id) ∧
      ∀ uid, ownerUid = some uid → credential.ownerUid = uid := by
  refine ⟨⟨(credentials.filter (selected ownerUid rp)).map row, ?_, ?_⟩, fun _ => selected_iff⟩
  · exact List.forall₂_map_right_iff.mpr (List.forall₂_same.mpr fun c _ => isRow_row c)
  · rw [printCredentials_eq, List.flatMap_def]
    simp only [List.map_eq_nil_iff]

/-- A credential whose relying party is named by the control sequence introducer, U+009B. -/
def csiCredential : CredentialSummary where
  id := [1]
  ownerUid := 1000
  rpId := [0xc2, 0x9b]
  userName := []
  userDisplayName := []
  signCount := 0
  discoverable := true
  creationOrder := 1

/-- The introducer is printed, in the column of the relying party. -/
theorem listing_prints_c1 : HasC1 (rpColumn csiCredential) ∧
    rpColumn csiCredential <:+: printCredentials [csiCredential] none none ∧
    HasC1 (printCredentials [csiCredential] none none) := by
  have hPrinted : printCredentials [csiCredential] none none = header ++ row csiCredential := by
    rw [printCredentials_eq]
    simp [selected, filterLines]
  have hColumn : rpColumn csiCredential = [0xc2, 0x9b] := by decide
  have hInfix : rpColumn csiCredential <:+: printCredentials [csiCredential] none none := by
    rw [hPrinted]
    refine ⟨header ++ setw ownerWidth (decimal csiCredential.ownerUid), ?_, ?_⟩
    rotate_left
    · simp only [row, setw, List.append_assoc]
      rfl
  refine ⟨⟨0x9b, by decide, by decide, ?_⟩, hInfix, 0x9b, by decide, by decide, ?_⟩
  · rw [hColumn]
  · exact hColumn ▸ hInfix

/-! ## Ids of credentials -/

def minCredentialIdSize : Nat := 16

def maxCredentialIdSize : Nat := 1024

def validCredentialIdHexLength (length : Nat) : Bool :=
  length ≥ minCredentialIdSize * 2 && length ≤ maxCredentialIdSize * 2 && length % 2 == 0

def decodeCredentialId (credentialId : Bytes) : Except Exn Bytes :=
  if ¬ validCredentialIdHexLength credentialId.length then
    .error (.invalidArgument ("Credential ID must contain between 32 and 2048 hexadecimal " ++
      "characters and have an even length"))
  else hexDecode credentialId

/-- **Hexadecimal is a faithful key.** -/
theorem hex_encoding_faithful :
    (∀ v, hexDecode (hexEncode v) = .ok v) ∧ Function.Injective hexEncode ∧
    (∀ s, (∃ v, hexDecode s = .ok v) ↔ s.length % 2 = 0 ∧ ∀ digit ∈ s, isHexDigit digit = true) ∧
    (∀ s v, hexDecode s = .ok v → hexEncode v = s.map upper) ∧
    ∀ s t, s.map upper = t.map upper → decodeCredentialId s = decodeCredentialId t := by
  refine ⟨hexDecode_hexEncode, hexEncode_injective, hexDecode_isOk_iff, fun s v h => ?_,
    fun s t hSame => ?_⟩
  · exact (hexDecode_ok h).2.2
  · have hLength : s.length = t.length := by
      simpa using congrArg List.length hSame
    have hDecode : hexDecode s = hexDecode t := by
      rw [← hexDecode_upper s, hSame, hexDecode_upper t]
    rw [decodeCredentialId, decodeCredentialId, hLength, hDecode]

end VAuth.Vauthctl
