/-
A sign-in through the browser, among other sign-ins and among strangers.

The agent registers a request under the challenge of a secret that it keeps, sends the
person to the page of that request, and claims the token with the code that reaches its own
port.  Whoever can reach the port may hand it any code, and whoever reads a code may try to
claim its token.  The server is a parameter; what the agent relies on of it is named apart.
-/

import KlaayGuard.Crates
import KlaayGuard.Json
import KlaayGuard.SignInCode
import KlaayGuard.Update
import KlaayGuard.Library.Interleaving

set_option autoImplicit false

namespace KlaayGuard

open EffectProgram Prog

/-- The base64, sha2 and serde_json crates, as far as a sign-in uses them. -/
structure SignInCrates : Type where
  /-- `URL_SAFE_NO_PAD.encode`. -/
  encode : List UInt8 → String
  /-- `Sha256::digest` of the bytes of a text. -/
  digest : String → List UInt8

/-- The two paths of the server, after its base URL. -/
inductive SignInPath : Type where
  | requests
  | claim
  deriving DecidableEq, Repr

def SignInPath.url (apiBase : String) : SignInPath → String
  | .requests => apiBase ++ "/cli_auth_requests"
  | .claim => apiBase ++ "/cli_auth_requests/claim"

inductive SignInEffect : Type where
  | bindLoopback
  | setBlocking
  | localPort
  | fillRandom
  | post (path : SignInPath) (body : Value)
  | copyToClipboard (text : String)
  | notifySignInLink (url : String) (onClipboard : Bool)
  | openFrontend (path : String)
  /-- The next connection on the own port. -/
  | accept
  | readLine
  | respond (page : String)
  | adoptToken (token : String)
  /-- A line for the log and the report of it. -/
  | report (message : String)
  | notifyUser (body : String)
  /-- The person approves a request for their own account, and the server makes a code. -/
  | approve (requestId token : String)

@[reducible] def SignInEffect.Reply : SignInEffect → Type
  | .bindLoopback => Except String Unit
  | .setBlocking => Except String Unit
  | .localPort => Except String Nat
  | .fillRandom => Option (List UInt8)
  | .post _ _ => Except String (HttpReply Value)
  | .copyToClipboard _ => Bool
  | .notifySignInLink _ _ => Unit
  | .openFrontend _ => Unit
  | .accept => Bool
  | .readLine => Option String
  | .respond _ => Unit
  | .adoptToken _ => Unit
  | .report _ => Unit
  | .notifyUser _ => Unit
  | .approve _ _ => String

abbrev SignInProgram (α : Type) : Type := Prog SignInEffect SignInEffect.Reply α

abbrev SignInEvent : Type := Event SignInEffect SignInEffect.Reply

/-- `pointer("/data/attributes/<key>")`, as a string. -/
def attributeText (reply : Value) (key : String) : Option String :=
  ((reply.get "data").bind fun data => data.get "attributes").bind fun attributes =>
    attributes.stringAt key

section Code

variable (crates : SignInCrates)

/-- 32 random bytes, base64url-encoded. -/
def randomSecret : SignInProgram (Option String) := do
  let filled ← perform SignInEffect.fillRandom
  pure (filled.map crates.encode)

def challengeFor (verifier : String) : String := crates.encode (crates.digest verifier)

def registerBody (challenge : String) (port : Nat) : Value :=
  .object [("data", .object [
    ("type", .string "cli_auth_requests"),
    ("attributes", .object [
      ("kind", .string "loopback"),
      ("client", .string "klaayguard"),
      ("code_challenge", .string challenge),
      ("redirect_port", .number (.posInt port))])])]

def claimBody (code verifier : String) : Value :=
  .object [("data", .object [
    ("type", .string "cli_auth_requests"),
    ("attributes", .object [("code", .string code), ("code_verifier", .string verifier)])])]

def requestIdOfReply : Except String (HttpReply Value) → Except String String
  | .error e => .error ("could not reach the server: " ++ e)
  | .ok response =>
      if !response.isSuccess then .error ("server refused the sign-in: " ++ response.statusText)
      else
        match response.body with
        | .error e => .error ("could not read the server's reply: " ++ e)
        | .ok parsed =>
            match attributeText parsed "request_id" with
            | some requestId => .ok requestId
            | none => .error "the server named no request to approve"

def registerSignIn (port : Nat) (verifier : String) :
    SignInProgram (Except String (String × String)) := do
  let reply ← perform (SignInEffect.post .requests
    (registerBody (challengeFor crates verifier) port))
  pure ((requestIdOfReply reply).map fun requestId => (requestId, verifier))

/-- The request of a `Pending` sign-in and its verifier. -/
def startSignIn : SignInProgram (Except String (String × String)) := do
  match ← perform SignInEffect.bindLoopback with
  | .error e => pure (.error ("could not bind loopback: " ++ e))
  | .ok () =>
      match ← perform SignInEffect.setBlocking with
      | .error e => pure (.error ("could not configure loopback: " ++ e))
      | .ok () =>
          match ← perform SignInEffect.localPort with
          | .error e => pure (.error ("could not read loopback port: " ++ e))
          | .ok port =>
              match ← randomSecret crates with
              | none => pure (.error "no OS randomness for the sign-in secret")
              | some verifier => registerSignIn crates port verifier

def signedInPage : String :=
  "<!doctype html><meta charset=utf-8><title>Signed in</title><p>KlaayGuard is signed in. " ++
    "You can close this window."

def signInFailedPage : String :=
  "<!doctype html><meta charset=utf-8><title>Sign-in failed</title><p>That reply carried no " ++
    "sign-in code. Open KlaayGuard from the tray and try again."

def pageReply (page : String) : String :=
  "HTTP/1.1 200 OK\r\nContent-Type: text/html; charset=utf-8\r\nContent-Length: " ++
    toString page.utf8ByteSize ++ "\r\nConnection: close\r\n\r\n" ++ page

def codeOfLine (line : String) : Option String :=
  (codeFromRequestLine line.toList).map String.ofList

/-- The browser is answered with a page, and the code is handed on. -/
def answerCode (code : Option String) : SignInProgram (Option String) := do
  let page := if code.isSome then signedInPage else signInFailedPage
  perform (SignInEffect.respond (pageReply page))
  pure code

def waitForCode : SignInProgram (Option String) := do
  if ← perform SignInEffect.accept then
    match ← perform SignInEffect.readLine with
    | none => pure none
    | some line => answerCode (codeOfLine line)
  else pure none

def tokenOfReply : Except String (HttpReply Value) → Except String String
  | .error e => .error ("could not reach the server: " ++ e)
  | .ok response =>
      if !response.isSuccess then .error ("the sign-in was refused: " ++ response.statusText)
      else
        match response.body with
        | .error e => .error ("could not read the server's reply: " ++ e)
        | .ok parsed =>
            match attributeText parsed "token" with
            | some token => .ok token
            | none => .error "the sign-in completed but carried no token"

def claimToken (code verifier : String) : SignInProgram (Except String String) := do
  let reply ← perform (SignInEffect.post .claim (claimBody code verifier))
  pure (tokenOfReply reply)

def loginPath (requestId : String) : String := "/login?app=klaayguard&request=" ++ requestId

/-- The link, for a desktop on which the browser window may not come up. -/
def offerSignInLink (linux : Bool) (url : String) : SignInProgram Unit :=
  if linux then do
    let onClipboard ← perform (SignInEffect.copyToClipboard url)
    perform (SignInEffect.notifySignInLink url onClipboard)
  else pure ()

def settleClaim : Except String String → SignInProgram Unit
  | .ok token => perform (SignInEffect.adoptToken token)
  | .error e => perform (SignInEffect.report ("sign_in_claim_failed: " ++ e))

def spendCode (verifier : String) : Option String → SignInProgram Unit
  | none => perform (SignInEffect.report "sign_in_no_code: the browser never came back")
  | some code => do
      let claimed ← claimToken code verifier
      settleClaim claimed

/-- The task `open_sign_in` spawns. -/
def openSignIn (linux : Bool) (frontend : String) : SignInProgram Unit := do
  match ← startSignIn crates with
  | .error e => do
      perform (SignInEffect.report ("sign_in_start_failed: " ++ e))
      perform (SignInEffect.notifyUser
        "Could not start sign-in. Check your connection and try again from the tray.")
  | .ok (requestId, verifier) => do
      let path := loginPath requestId
      offerSignInLink linux (frontend ++ path)
      perform (SignInEffect.openFrontend path)
      let code ← waitForCode
      spendCode verifier code

end Code

/-- What anybody else can do: ask the server for anything, and approve a request. -/
def SignInEffect.byAnybody : SignInEffect → Prop
  | .post _ _ => True
  | .approve _ _ => True
  | _ => False

inductive SignInTask : Type where
  | signIn (linux : Bool) (frontend : String)
  | stranger (program : SignInProgram Unit) (only : program.Only SignInEffect.byAnybody)

def SignInTask.IsStranger : SignInTask → Prop
  | signIn _ _ => False
  | stranger _ _ => True

def SignInTask.program (crates : SignInCrates) : SignInTask → SignInProgram Unit
  | signIn linux frontend => openSignIn crates linux frontend
  | stranger program _ => program

/-! ### The world -/

variable {ι : Type}

/-- A request as the server keeps it, with the thread that asked for it. -/
structure RegisteredRequest (ι : Type) : Type where
  owner : ι
  id : String
  challenge : String

/-- A code, with the request it was made for and the token behind it. -/
structure Approval : Type where
  code : String
  requestId : String
  token : String

structure SignInBooks (ι : Type) : Type where
  requests : List (RegisteredRequest ι)
  approvals : List Approval
  /-- The tokens given out, with their request and the thread that got them. -/
  released : List (ι × String × String)

structure SignInWorld (ι : Type) : Type extends SignInBooks ι where
  /-- The secrets drawn so far, by the thread that drew them. -/
  secrets : List (ι × String)
  /-- The paths opened in the browser and the tokens taken up. -/
  opened : List (ι × String)
  adopted : List (ι × String)

def SignInWorld.quiet : SignInWorld ι :=
  { requests := [], approvals := [], secrets := [], released := [], opened := [], adopted := [] }

/-- The server, which is not part of the agent: how it answers, and what it then keeps. -/
structure SignInServer (ι : Type) : Type where
  registers : ι → SignInBooks ι → Value → Except String (HttpReply Value) → SignInBooks ι → Prop
  claims : ι → SignInBooks ι → Value → Except String (HttpReply Value) → SignInBooks ι → Prop
  approves : SignInBooks ι → (requestId token code : String) → SignInBooks ι → Prop

/-- A request of a challenge is made, under an id that is not in use, and named where the reply
arrives. -/
def Registered (thread : ι) (books : SignInBooks ι) (body : Value)
    (reply : Except String (HttpReply Value)) (after : SignInBooks ι) : Prop :=
  ((∃ e, requestIdOfReply reply = .error e) ∧ after = books) ∨
    ∃ id challenge, attributeText body "code_challenge" = some challenge ∧
      (∀ request ∈ books.requests, request.id ≠ id) ∧
      (∀ named, requestIdOfReply reply = .ok named → named = id) ∧
      after = { books with
        requests := { owner := thread, id := id, challenge := challenge } :: books.requests }

/-- A token is given for the code of a request and the secret behind its challenge. -/
def Claimed (crates : SignInCrates) (thread : ι) (books : SignInBooks ι) (body : Value)
    (reply : Except String (HttpReply Value)) (after : SignInBooks ι) : Prop :=
  match tokenOfReply reply with
  | .error _ => after = books
  | .ok token =>
      ∃ approval ∈ books.approvals, ∃ request ∈ books.requests, ∃ verifier,
        attributeText body "code" = some approval.code ∧
        attributeText body "code_verifier" = some verifier ∧
        approval.token = token ∧ approval.requestId = request.id ∧
        request.challenge = challengeFor crates verifier ∧
        after = { books with released := (thread, request.id, token) :: books.released }

/-- What the agent relies on: the server checks the verifier of a claim against the challenge
that was registered, and a request id selects one request. -/
structure SignInServer.ChecksVerifier (server : SignInServer ι) (crates : SignInCrates) :
    Prop where
  registers : ∀ {thread books body reply after},
    server.registers thread books body reply after → Registered thread books body reply after
  claims : ∀ {thread books body reply after},
    server.claims thread books body reply after → Claimed crates thread books body reply after
  approves : ∀ {books requestId token code after},
    server.approves books requestId token code after →
      after = { books with
        approvals := { code := code, requestId := requestId, token := token } ::
          books.approvals }

def performsSignIn (server : SignInServer ι) (crates : SignInCrates) :
    ι → SignInWorld ι → (action : SignInEffect) → action.Reply → SignInWorld ι → Prop
  | thread, world, .post .requests body, reply, after =>
      ∃ books, server.registers thread world.toSignInBooks body reply books ∧
        after = { world with toSignInBooks := books }
  | thread, world, .post .claim body, reply, after =>
      ∃ books, server.claims thread world.toSignInBooks body reply books ∧
        after = { world with toSignInBooks := books }
  | thread, world, .fillRandom, reply, after =>
      match reply with
      | some bytes => after = { world with secrets := (thread, crates.encode bytes) :: world.secrets }
      | none => after = world
  | thread, world, .openFrontend path, _, after =>
      after = { world with opened := (thread, path) :: world.opened }
  | thread, world, .adoptToken token, _, after =>
      after = { world with adopted := (thread, token) :: world.adopted }
  | _, world, .approve requestId token, code, after =>
      ∃ books, server.approves world.toSignInBooks requestId token code books ∧
        after = { world with toSignInBooks := books }
  | _, world, .bindLoopback, _, after => after = world
  | _, world, .setBlocking, _, after => after = world
  | _, world, .localPort, _, after => after = world
  | _, world, .copyToClipboard _, _, after => after = world
  | _, world, .notifySignInLink _ _, _, after => after = world
  | _, world, .accept, _, after => after = world
  | _, world, .readLine, _, after => after = world
  | _, world, .respond _, _, after => after = world
  | _, world, .report _, _, after => after = world
  | _, world, .notifyUser _, _, after => after = world

abbrev SignInConfig (ι : Type) : Type :=
  Config (SignInWorld ι) ι SignInEffect SignInEffect.Reply Unit

abbrev signInSemantics (server : SignInServer ι) (crates : SignInCrates) :
    Semantics (SignInWorld ι) ι SignInEffect SignInEffect.Reply := performsSignIn server crates

/-- A secret that is drawn is new: nobody has drawn or registered its challenge. -/
def DrawsAnew (crates : SignInCrates) (world : SignInWorld ι) (secret : String) : Prop :=
  (∀ drawn ∈ world.secrets, challengeFor crates drawn.2 ≠ challengeFor crates secret) ∧
    ∀ request ∈ world.requests, request.challenge ≠ challengeFor crates secret

/-- What a stranger asks the server has neither the challenge of a sign-in nor its secret. -/
def Guesses (crates : SignInCrates) (world : SignInWorld ι) (body : Value) : Prop :=
  ∃ drawn ∈ world.secrets,
    attributeText body "code_challenge" = some (challengeFor crates drawn.2) ∨
      ∃ verifier, attributeText body "code_verifier" = some verifier ∧
        challengeFor crates verifier = challengeFor crates drawn.2

def SecretsKept (crates : SignInCrates) (tasks : ι → SignInTask) :
    StepCondition (SignInWorld ι) ι SignInEffect SignInEffect.Reply Unit :=
  fun config thread event =>
    (∀ bytes, event = ⟨.fillRandom, some bytes⟩ →
      DrawsAnew crates config.shared (crates.encode bytes)) ∧
    ((tasks thread).IsStranger → ∀ path body reply, event = ⟨.post path body, reply⟩ →
      ¬ Guesses crates config.shared body)

inductive SignInPhase : Type where
  | stranger
  | fresh
  | holding (verifier : String)
  | registered (verifier requestId : String)
  | waiting (verifier requestId : String)
  | coded (verifier requestId code : String)
  | claimed (requestId token : String)
  | ended

def SignInEffect.harmless : SignInEffect → Prop
  | .post _ _ => False
  | .fillRandom => False
  | .openFrontend _ => False
  | .adoptToken _ => False
  | .approve _ _ => False
  | _ => True

def signInAllowed (crates : SignInCrates) : SignInPhase → SignInEffect → Prop
  | .stranger, action => action.byAnybody
  | .fresh, action => action.harmless ∨ action = .fillRandom
  | .holding verifier, action =>
      ∃ port, action = .post .requests (registerBody (challengeFor crates verifier) port)
  | .registered _ requestId, action =>
      action.harmless ∨ action = .openFrontend (loginPath requestId)
  | .waiting _ _, action => action.harmless
  | .coded verifier _ code, action =>
      action.harmless ∨ action = .post .claim (claimBody code verifier)
  | .claimed _ token, action => action = .adoptToken token
  | .ended, action => action.harmless

def signInNext (crates : SignInCrates) :
    SignInPhase → (action : SignInEffect) → action.Reply → SignInPhase
  | .fresh, .fillRandom, some bytes => .holding (crates.encode bytes)
  | .fresh, .fillRandom, none => .ended
  | .holding verifier, .post _ _, reply =>
      match requestIdOfReply reply with
      | .ok requestId => .registered verifier requestId
      | .error _ => .ended
  | .registered verifier requestId, .openFrontend _, _ => .waiting verifier requestId
  | .waiting verifier requestId, .readLine, some line =>
      match codeOfLine line with
      | some code => .coded verifier requestId code
      | none => .ended
  | .coded _ requestId _, .post _ _, reply =>
      match tokenOfReply reply with
      | .ok token => .claimed requestId token
      | .error _ => .ended
  | .claimed _ _, .adoptToken _, _ => .ended
  | phase, _, _ => phase

def signInSteps (crates : SignInCrates) :
    Protocol SignInEffect SignInEffect.Reply SignInPhase Unit :=
  { allowed := signInAllowed crates
    next := signInNext crates
    finished := fun _ _ => True }

def SignInTask.firstPhase : SignInTask → SignInPhase
  | signIn _ _ => .fresh
  | stranger _ _ => .stranger

variable {crates : SignInCrates}

def SignInPhase.AfterStart : SignInPhase → Except String (String × String) → Prop
  | phase, .ok (requestId, verifier) => phase = .registered verifier requestId
  | phase, .error _ => phase = .ended ∨ phase = .fresh

theorem startSignIn_conforms :
    (startSignIn crates).Conforms
      { allowed := signInAllowed crates
        next := signInNext crates
        finished := SignInPhase.AfterStart } .fresh := by
  refine ⟨Or.inl trivial, fun bound => ?_⟩
  cases bound with
  | error e => exact Or.inr rfl
  | ok _ =>
      refine ⟨Or.inl trivial, fun blocking => ?_⟩
      cases blocking with
      | error e => exact Or.inr rfl
      | ok _ =>
          refine ⟨Or.inl trivial, fun port => ?_⟩
          cases port with
          | error e => exact Or.inr rfl
          | ok port =>
              refine ⟨Or.inr rfl, fun filled => ?_⟩
              cases filled with
              | none => exact Or.inl rfl
              | some bytes =>
                  refine ⟨⟨port, rfl⟩, fun reply => ?_⟩
                  change Conforms _ (signInNext crates (.holding (crates.encode bytes))
                    (.post .requests _) reply)
                    (.done ((requestIdOfReply reply).map fun requestId =>
                      (requestId, crates.encode bytes)))
                  simp only [signInNext]
                  cases requestIdOfReply reply with
                  | error e => exact Or.inl rfl
                  | ok requestId => rfl

def SignInPhase.AfterCode (verifier requestId : String) : SignInPhase → Option String → Prop
  | phase, some code => phase = .coded verifier requestId code
  | phase, none => phase = .ended ∨ phase = .waiting verifier requestId

theorem waitForCode_conforms {verifier requestId : String} :
    waitForCode.Conforms
      { allowed := signInAllowed crates
        next := signInNext crates
        finished := SignInPhase.AfterCode verifier requestId } (.waiting verifier requestId) := by
  refine ⟨trivial, fun accepted => ?_⟩
  cases accepted with
  | false => exact Or.inr rfl
  | true =>
      refine ⟨trivial, fun line => ?_⟩
      cases line with
      | none => exact Or.inr rfl
      | some line =>
          change Conforms _ (signInNext crates (.waiting verifier requestId) .readLine (some line))
            (answerCode (codeOfLine line))
          simp only [signInNext]
          cases codeOfLine line with
          | none => exact ⟨trivial, fun _ => Or.inl rfl⟩
          | some code => exact ⟨Or.inl trivial, fun _ => rfl⟩

theorem spendCode_conforms {phase : SignInPhase} {verifier requestId : String}
    {code : Option String} (after : phase.AfterCode verifier requestId code) :
    (spendCode verifier code).Conforms (signInSteps crates) phase := by
  cases code with
  | none => rcases after with rfl | rfl <;> exact ⟨trivial, fun _ => trivial⟩
  | some code =>
      obtain rfl : phase = .coded verifier requestId code := after
      refine ⟨Or.inr rfl, fun reply => ?_⟩
      change Conforms _ (signInNext crates (.coded verifier requestId code)
        (.post .claim _) reply) (settleClaim (tokenOfReply reply))
      simp only [signInNext]
      cases tokenOfReply reply with
      | error e => exact ⟨trivial, fun _ => trivial⟩
      | ok token => exact ⟨rfl, fun _ => trivial⟩

theorem openSignIn_conforms (linux : Bool) (frontend : String) :
    (openSignIn crates linux frontend).Conforms (signInSteps crates) .fresh := by
  refine startSignIn_conforms.bind ?_
  rintro phase (e | ⟨requestId, verifier⟩) after
  · rcases after with rfl | rfl
    · exact ⟨trivial, fun _ => ⟨trivial, fun _ => trivial⟩⟩
    · exact ⟨Or.inl trivial, fun _ => ⟨Or.inl trivial, fun _ => trivial⟩⟩
  · obtain rfl : phase = .registered verifier requestId := after
    have waiting : (waitForCode >>= spendCode verifier).Conforms (signInSteps crates)
        (.waiting verifier requestId) := by
      refine waitForCode_conforms.bind ?_
      exact fun phase code after => spendCode_conforms after
    cases linux with
    | false => exact ⟨Or.inr rfl, fun _ => waiting⟩
    | true =>
        exact ⟨Or.inl trivial, fun _ => ⟨Or.inl trivial, fun _ => ⟨Or.inr rfl, fun _ => waiting⟩⟩⟩

theorem SignInTask.conforms (task : SignInTask) :
    (task.program crates).Conforms (signInSteps crates) task.firstPhase := by
  cases task with
  | signIn linux frontend => exact openSignIn_conforms linux frontend
  | stranger program only =>
      refine only.conforms (fun _ kind => kind) ?_ fun _ => trivial
      intro action reply kind
      cases action <;> rfl

/-! The S256 example of RFC 7636, for the tests of these modules. -/

def rfcSecret : List UInt8 :=
  [116, 24, 223, 180, 151, 153, 224, 37, 79, 250, 96, 125, 216, 173, 187, 186, 22, 212, 37, 77,
    105, 214, 191, 240, 91, 88, 5, 88, 83, 132, 141, 121]

def rfcDigest : List UInt8 :=
  [19, 211, 30, 150, 26, 26, 216, 236, 47, 22, 177, 12, 76, 152, 46, 8, 118, 168, 120, 173, 109,
    241, 68, 86, 110, 225, 137, 74, 203, 112, 249, 195]

def rfcVerifier : String := "dBjftJeZ4CVP-mB92K27uhbUJU1p1r_wW1gFWFOEjXk"

def rfcCrates : SignInCrates where
  encode := fun bytes =>
    if bytes = rfcSecret then rfcVerifier else "E9Melhoa2OwvFrEMTJguCHaoeK1t8URWbuGJSstw-cM"
  digest := fun _ => rfcDigest

def attributesReply (attributes : List (String × Value)) :
    Except String (HttpReply Value) :=
  .ok { status := 200
        statusText := "200 OK"
        body := .ok (.object [("data", .object [("attributes", .object attributes)])]) }

end KlaayGuard
