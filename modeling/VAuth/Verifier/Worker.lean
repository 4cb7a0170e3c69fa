import VAuth.Verifier.Network

/-!
# The worker

`run_vauth_auth_handler`: it takes the start packet, lets PAM authenticate the user and sends
the result. PAM is arbitrary: each of its functions calls the conversation any number of times
with any messages and then returns any status. The check of the command line and null
pointers in place of the arrays of a conversation are left out; they end the worker, or the
conversation, before anything is sent.
-/

namespace VAuth.Verifier

def pamMaxNumMsg : Nat := 32

/-- `send_verifier_message`. -/
def sendToBroker (message : VerifierMessage) : PartyProc Unit := sendAsVerifier .inner message

def callocFails : PartyProc Bool := Proc.observe fun i _ => .ok i.fails

def readSecretResponse (rounds : Nat) (prompt : Bytes) : PartyProc PamStatus := do
  sendToBroker (.secretRequired { prompt })
  match ← receiveAsVerifier rounds .inner with
  | .secretResponse _ =>
    if ← callocFails then return .bufErr
    return .success
  | _ => return .convErr

def PamMessage.text (m : PamMessage) : Bytes := m.msg.getD []

/-- The `switch` on the style of one message. -/
def converseMessage (rounds : Nat) (m : PamMessage) : PartyProc PamStatus :=
  match m.style with
  | .promptEchoOff => readSecretResponse rounds m.text
  | .promptEchoOn => return .convErr
  | .textInfo => do
      sendToBroker (.status { kind := .information, message := m.text })
      return .success
  | .errorMsg => do
      sendToBroker (.status { kind := .error, message := m.text })
      return .success
  | .other => return .convErr

/-- The loop of `conversation` over the messages. -/
def converseAll (rounds : Nat) : List (Option PamMessage) → PartyProc PamStatus
  | [] => return .success
  | none :: _ => return .convErr
  | some m :: rest => do
      let rc ← converseMessage rounds m
      if rc ≠ .success then return rc
      converseAll rounds rest

def conversation (rounds : Nat) (messages : List (Option PamMessage)) : PartyProc PamStatus := do
  if messages.isEmpty ∨ messages.length > pamMaxNumMsg then return .convErr
  if ← callocFails then return .bufErr
  tryCatch (converseAll rounds messages) fun _ => return .convErr

/-- A call of a function of PAM. -/
def pamCall (rounds : Nat) : PartyProc PamStatus :=
  Proc.loop (fun _ => do
    match ← Proc.observe fun i _ => .ok i.pam with
    | .returned status => return .inr status
    | .converse messages =>
      let _ ← conversation rounds messages
      return .inl ()) rounds ()

/-- `if(rc == PAM_SUCCESS) rc = …` -/
def pamCallAfter (rounds : Nat) (rc : PamStatus) : PartyProc PamStatus :=
  if rc = .success then pamCall rounds else return rc

/-- `pam_start_confdir`, `pam_authenticate`, `pam_acct_mgmt` and `pam_end`. -/
def authenticate (rounds : Nat) : PartyProc PamStatus := do
  let rc ← pamCall rounds
  let rc ← pamCallAfter rounds rc
  let rc ← pamCallAfter rounds rc
  let endRc ← pamCall rounds
  if rc = .success ∧ endRc ≠ .success then return endRc
  return rc

def verificationResultFromPamStatus : PamStatus → VerificationResult
  | .success => .success
  | .permDenied => .denied
  | .authErr => .denied
  | .credInsufficient => .denied
  | .userUnknown => .denied
  | .maxtries => .denied
  | .newAuthtokReqd => .denied
  | .acctExpired => .denied
  | _ => .error

def armParentDeathSignal : PartyProc Unit :=
  Proc.observe fun i _ => if i.fails then .error (.systemError "prctl PR_SET_PDEATHSIG") else .ok ()

def runVauthAuthHandler (rounds : Nat) : PartyProc PamStatus :=
  tryCatch (do
      armParentDeathSignal
      let _ ← receiveAsVerifier rounds .inner
      let result ← authenticate rounds
      sendToBroker (.complete (verificationResultFromPamStatus result))
      return result)
    fun _ => return .systemErr

end VAuth.Verifier
