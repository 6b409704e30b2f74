/-
Whose token a sign-in takes up, and who gets the token of a sign-in.

The invariant ties the secrets that were drawn to the requests that the server keeps: a
request under the challenge of a secret belongs to the thread that drew it.  Whoever is given
a token has named a secret with the challenge of the request behind it.
-/

import Mathlib.Data.List.Nodup
import KlaayGuard.SignInFlow

set_option autoImplicit false

namespace KlaayGuard

open EffectProgram Prog

variable {ι : Type} (crates : SignInCrates)

def OwnRequest (thread : ι) (requestId : String) (world : SignInWorld ι) : Prop :=
  ∃ request ∈ world.requests, request.owner = thread ∧ request.id = requestId

def ApprovedToken (requestId token : String) (world : SignInWorld ι) : Prop :=
  ∃ approval ∈ world.approvals, approval.requestId = requestId ∧ approval.token = token

/-- The one request under the challenge of a secret. -/
def SoleRequest (thread : ι) (verifier requestId : String) (world : SignInWorld ι) : Prop :=
  (thread, verifier) ∈ world.secrets ∧ OwnRequest thread requestId world ∧
    ∀ request ∈ world.requests, request.challenge = challengeFor crates verifier →
      request.id = requestId

/-- What is true of the world where a sign-in stands in a phase. -/
def SignInPhase.Stands (thread : ι) (world : SignInWorld ι) : SignInPhase → Prop
  | holding verifier =>
      (thread, verifier) ∈ world.secrets ∧
        ∀ request ∈ world.requests, request.challenge ≠ challengeFor crates verifier
  | registered verifier requestId => SoleRequest crates thread verifier requestId world
  | waiting verifier requestId =>
      SoleRequest crates thread verifier requestId world ∧
        (thread, loginPath requestId) ∈ world.opened
  | coded verifier requestId _ =>
      SoleRequest crates thread verifier requestId world ∧
        (thread, loginPath requestId) ∈ world.opened
  | claimed requestId token =>
      (thread, loginPath requestId) ∈ world.opened ∧ OwnRequest thread requestId world ∧
        ApprovedToken requestId token world
  | _ => True

/-- A token that was given out belongs to a request, and one that a sign-in registered is the
request of the thread that got the token. -/
def GivenToOwner (tasks : ι → SignInTask) (world : SignInWorld ι) (given : ι × String × String) :
    Prop :=
  ∃ request ∈ world.requests, request.id = given.2.1 ∧
    (¬ (tasks request.owner).IsStranger → request.owner = given.1)

/-- A token that was taken up was approved for the request that the thread registered and
whose page it opened. -/
def TakenByOwner (world : SignInWorld ι) (taken : ι × String) : Prop :=
  ∃ requestId, (taken.1, loginPath requestId) ∈ world.opened ∧
    OwnRequest taken.1 requestId world ∧ ApprovedToken requestId taken.2 world

structure SignInBound (tasks : ι → SignInTask) (world : SignInWorld ι)
    (phases : ι → SignInPhase) : Prop where
  strangers : ∀ thread, phases thread = .stranger ↔ (tasks thread).IsStranger
  ids : world.requests.Pairwise fun newer older => older.id ≠ newer.id
  apart : ∀ left ∈ world.secrets, ∀ right ∈ world.secrets,
    challengeFor crates left.2 = challengeFor crates right.2 → left.1 = right.1
  owned : ∀ drawn ∈ world.secrets, ∀ request ∈ world.requests,
    request.challenge = challengeFor crates drawn.2 → request.owner = drawn.1
  drawn : ∀ request ∈ world.requests, ¬ (tasks request.owner).IsStranger →
    ∃ verifier, (request.owner, verifier) ∈ world.secrets ∧
      request.challenge = challengeFor crates verifier
  stands : ∀ thread, (phases thread).Stands crates thread world
  released : ∀ given ∈ world.released, GivenToOwner tasks world given
  adopted : ∀ taken ∈ world.adopted, TakenByOwner world taken

variable {crates} {tasks : ι → SignInTask} {world after : SignInWorld ι}
variable {phases : ι → SignInPhase} {thread : ι} {phase : SignInPhase}

theorem OwnRequest.mono {requestId : String} (own : OwnRequest thread requestId world)
    (requests : ∀ request ∈ world.requests, request ∈ after.requests) :
    OwnRequest thread requestId after := by
  obtain ⟨request, kept, isOwn⟩ := own
  exact ⟨request, requests request kept, isOwn⟩

theorem ApprovedToken.mono {requestId token : String}
    (approved : ApprovedToken requestId token world)
    (approvals : ∀ approval ∈ world.approvals, approval ∈ after.approvals) :
    ApprovedToken requestId token after := by
  obtain ⟨approval, kept, isFor⟩ := approved
  exact ⟨approval, approvals approval kept, isFor⟩

/-- The world only grows, and new requests are not under the challenges of old secrets of
the thread. -/
structure GrowsBeside (crates : SignInCrates) (thread : ι) (world after : SignInWorld ι) :
    Prop where
  requests : ∀ request ∈ world.requests, request ∈ after.requests
  approvals : ∀ approval ∈ world.approvals, approval ∈ after.approvals
  secrets : ∀ drawn ∈ world.secrets, drawn ∈ after.secrets
  opened : ∀ path ∈ world.opened, path ∈ after.opened
  beside : ∀ request ∈ after.requests, request ∈ world.requests ∨
    ∀ verifier, (thread, verifier) ∈ world.secrets →
      request.challenge ≠ challengeFor crates verifier

theorem SoleRequest.mono {verifier requestId : String}
    (sole : SoleRequest crates thread verifier requestId world)
    (grows : GrowsBeside crates thread world after) :
    SoleRequest crates thread verifier requestId after := by
  obtain ⟨drawn, own, only⟩ := sole
  refine ⟨grows.secrets _ drawn, own.mono grows.requests, fun request kept same => ?_⟩
  rcases grows.beside request kept with before | other
  · exact only request before same
  · exact absurd same (other verifier drawn)

theorem SignInPhase.Stands.mono (stands : phase.Stands crates thread world)
    (grows : GrowsBeside crates thread world after) : phase.Stands crates thread after := by
  cases phase with
  | holding verifier =>
      refine ⟨grows.secrets _ stands.1, fun request kept => ?_⟩
      rcases grows.beside request kept with before | other
      · exact stands.2 request before
      · exact other verifier stands.1
  | registered verifier requestId => exact SoleRequest.mono stands grows
  | waiting verifier requestId => exact ⟨stands.1.mono grows, grows.opened _ stands.2⟩
  | coded verifier requestId code => exact ⟨stands.1.mono grows, grows.opened _ stands.2⟩
  | claimed requestId token =>
      exact ⟨grows.opened _ stands.1, stands.2.1.mono grows.requests,
        stands.2.2.mono grows.approvals⟩
  | _ => trivial

theorem GivenToOwner.mono {given : ι × String × String} (toOwner : GivenToOwner tasks world given)
    (requests : ∀ request ∈ world.requests, request ∈ after.requests) :
    GivenToOwner tasks after given := by
  obtain ⟨request, kept, isOwners⟩ := toOwner
  exact ⟨request, requests request kept, isOwners⟩

theorem TakenByOwner.mono {taken : ι × String} (byOwner : TakenByOwner world taken)
    (grows : GrowsBeside crates thread world after) : TakenByOwner after taken := by
  obtain ⟨requestId, opened, own, approved⟩ := byOwner
  exact ⟨requestId, grows.opened _ opened, own.mono grows.requests,
    approved.mono grows.approvals⟩

theorem GrowsBeside.of_same (requests : after.requests = world.requests)
    (secrets : after.secrets = world.secrets)
    (approvals : ∀ approval ∈ world.approvals, approval ∈ after.approvals)
    (opened : ∀ path ∈ world.opened, path ∈ after.opened) (thread : ι) :
    GrowsBeside crates thread world after where
  requests := fun request kept => by rw [requests]; exact kept
  approvals := approvals
  secrets := fun drawn kept => by rw [secrets]; exact kept
  opened := opened
  beside := fun request kept => by rw [requests] at kept; exact Or.inl kept

variable [DecidableEq ι]

theorem stands_update (bound : SignInBound crates tasks world phases)
    (grows : ∀ other, other ≠ thread → GrowsBeside crates other world after)
    (stands : phase.Stands crates thread after) :
    ∀ other, (Function.update phases thread phase other).Stands crates other after := by
  intro other
  by_cases same : other = thread
  · subst same
    rw [Function.update_self]
    exact stands
  · rw [Function.update_of_ne same]
    exact (bound.stands other).mono (grows other same)

theorem strangers_update (bound : SignInBound crates tasks world phases)
    (kind : phase = .stranger ↔ phases thread = .stranger) :
    ∀ other, Function.update phases thread phase other = .stranger ↔
      (tasks other).IsStranger := by
  intro other
  by_cases same : other = thread
  · subst same
    rw [Function.update_self, kind]
    exact bound.strangers other
  · rw [Function.update_of_ne same]
    exact bound.strangers other

theorem SignInBound.quiet (bound : SignInBound crates tasks world phases)
    (requests : after.requests = world.requests) (secrets : after.secrets = world.secrets)
    (approvals : ∀ approval ∈ world.approvals, approval ∈ after.approvals)
    (opened : ∀ path ∈ world.opened, path ∈ after.opened)
    (released : ∀ given ∈ after.released, given ∈ world.released ∨ GivenToOwner tasks after given)
    (adopted : ∀ taken ∈ after.adopted, taken ∈ world.adopted ∨ TakenByOwner after taken)
    (kind : phase = .stranger ↔ phases thread = .stranger)
    (stands : phase.Stands crates thread after) :
    SignInBound crates tasks after (Function.update phases thread phase) where
  strangers := strangers_update bound kind
  ids := by rw [requests]; exact bound.ids
  apart := by rw [secrets]; exact bound.apart
  owned := by rw [secrets, requests]; exact bound.owned
  drawn := by rw [secrets, requests]; exact bound.drawn
  stands := stands_update bound
    (fun other _ => .of_same requests secrets approvals opened other) stands
  released := by
    intro given kept
    rcases released given kept with before | toOwner
    · exact (bound.released given before).mono fun request kept => by rw [requests]; exact kept
    · exact toOwner
  adopted := by
    intro taken kept
    rcases adopted taken kept with before | byOwner
    · have grows : GrowsBeside crates thread world after :=
        .of_same requests secrets approvals opened thread
      exact (bound.adopted taken before).mono grows
    · exact byOwner

theorem SignInBound.same (bound : SignInBound crates tasks world phases)
    (kind : phase = .stranger ↔ phases thread = .stranger)
    (stands : phase.Stands crates thread world) :
    SignInBound crates tasks world (Function.update phases thread phase) :=
  bound.quiet rfl rfl (fun _ kept => kept) (fun _ kept => kept) (fun _ kept => Or.inl kept)
    (fun _ kept => Or.inl kept) kind stands

theorem SignInBound.draw (bound : SignInBound crates tasks world phases) {secret : String}
    (anew : DrawsAnew crates world secret) (isFresh : phases thread = .fresh) :
    SignInBound crates tasks { world with secrets := (thread, secret) :: world.secrets }
      (Function.update phases thread (.holding secret)) := by
  have grows : ∀ other, GrowsBeside crates other world
      { world with secrets := (thread, secret) :: world.secrets } := fun other =>
    { requests := fun _ kept => kept
      approvals := fun _ kept => kept
      secrets := fun _ kept => List.mem_cons_of_mem _ kept
      opened := fun _ kept => kept
      beside := fun _ kept => Or.inl kept }
  refine
    { strangers := strangers_update bound (by simp [isFresh])
      ids := bound.ids
      apart := ?_
      owned := ?_
      drawn := ?_
      stands := stands_update bound (fun other _ => grows other)
        ⟨List.mem_cons_self, anew.2⟩
      released := fun given kept => (bound.released given kept).mono fun _ kept => kept
      adopted := fun taken kept => (bound.adopted taken kept).mono (grows thread) }
  · intro left inLeft right inRight same
    rcases List.mem_cons.mp inLeft with rfl | inLeft
    · rcases List.mem_cons.mp inRight with rfl | inRight
      · rfl
      · exact absurd same.symm (anew.1 right inRight)
    · rcases List.mem_cons.mp inRight with rfl | inRight
      · exact absurd same (anew.1 left inLeft)
      · exact bound.apart left inLeft right inRight same
  · intro drawn inDrawn request kept same
    rcases List.mem_cons.mp inDrawn with rfl | inDrawn
    · exact absurd same (anew.2 request kept)
    · exact bound.owned drawn inDrawn request kept same
  · intro request kept isAgent
    obtain ⟨verifier, inSecrets, same⟩ := bound.drawn request kept isAgent
    exact ⟨verifier, List.mem_cons_of_mem _ inSecrets, same⟩

theorem SignInBound.register (bound : SignInBound crates tasks world phases)
    {requestId challenge : String} (anew : ∀ request ∈ world.requests, request.id ≠ requestId)
    (own : ∀ drawn ∈ world.secrets, challenge = challengeFor crates drawn.2 → thread = drawn.1)
    (fromSecret : ¬ (tasks thread).IsStranger →
      ∃ verifier, (thread, verifier) ∈ world.secrets ∧ challenge = challengeFor crates verifier)
    (kind : phase = .stranger ↔ phases thread = .stranger)
    (stands : phase.Stands crates thread { world with
      requests := { owner := thread, id := requestId, challenge := challenge } ::
        world.requests }) :
    SignInBound crates tasks
      { world with
        requests := { owner := thread, id := requestId, challenge := challenge } ::
          world.requests }
      (Function.update phases thread phase) := by
  have grown : ∀ request ∈ world.requests,
      request ∈ ({ owner := thread, id := requestId, challenge := challenge } ::
        world.requests : List (RegisteredRequest ι)) := fun _ kept => List.mem_cons_of_mem _ kept
  refine
    { strangers := strangers_update bound kind
      ids := List.pairwise_cons.mpr ⟨anew, bound.ids⟩
      apart := bound.apart
      owned := ?_
      drawn := ?_
      stands := stands_update bound ?_ stands
      released := fun given kept => (bound.released given kept).mono grown
      adopted := ?_ }
  · intro drawn inDrawn request kept same
    rcases List.mem_cons.mp kept with rfl | kept
    · exact own drawn inDrawn same
    · exact bound.owned drawn inDrawn request kept same
  · intro request kept isAgent
    rcases List.mem_cons.mp kept with rfl | kept
    · exact fromSecret isAgent
    · exact bound.drawn request kept isAgent
  · intro other differs
    refine
      { requests := grown
        approvals := fun _ kept => kept
        secrets := fun _ kept => kept
        opened := fun _ kept => kept
        beside := ?_ }
    intro request kept
    rcases List.mem_cons.mp kept with rfl | kept
    · exact Or.inr fun verifier drawn same => differs (own (other, verifier) drawn same).symm
    · exact Or.inl kept
  · intro taken kept
    obtain ⟨requestId, opened, ownRequest, approved⟩ := bound.adopted taken kept
    exact ⟨requestId, opened, ownRequest.mono grown, approved⟩

/-! ### The steps -/

section Steps

variable {action : SignInEffect} {reply : action.Reply} {server : SignInServer ι}

omit [DecidableEq ι] in
theorem SignInEffect.harmless_keeps (harmless : action.harmless)
    (performed : performsSignIn server crates thread world action reply after) :
    after = world := by
  cases action with
  | post path body => exact harmless.elim
  | fillRandom => exact harmless.elim
  | openFrontend path => exact harmless.elim
  | adoptToken token => exact harmless.elim
  | approve requestId token => exact harmless.elim
  | _ => exact performed

omit [DecidableEq ι] in
theorem signInNext_harmless {phase : SignInPhase} (harmless : action.harmless)
    (notWaiting : ∀ verifier requestId, phase ≠ .waiting verifier requestId) :
    signInNext crates phase action reply = phase := by
  cases phase with
  | waiting verifier requestId => exact absurd rfl (notWaiting verifier requestId)
  | _ => cases action <;> first | rfl | exact harmless.elim

theorem SignInBound.harmless_step (bound : SignInBound crates tasks world phases)
    (harmless : action.harmless)
    (notWaiting : ∀ verifier requestId, phases thread ≠ .waiting verifier requestId)
    (performed : performsSignIn server crates thread world action reply after) :
    SignInBound crates tasks after
      (Function.update phases thread (signInNext crates (phases thread) action reply)) := by
  obtain rfl := SignInEffect.harmless_keeps harmless performed
  rw [signInNext_harmless harmless notWaiting]
  exact bound.same Iff.rfl (bound.stands thread)

theorem SignInBound.stranger_step (bound : SignInBound crates tasks world phases)
    (checks : server.ChecksVerifier crates)
    (isStranger : phases thread = .stranger) (anybody : action.byAnybody)
    (performed : performsSignIn server crates thread world action reply after)
    (kept : ∀ path body answer, (⟨action, reply⟩ : SignInEvent) = ⟨.post path body, answer⟩ →
      ¬ Guesses crates world body) :
    SignInBound crates tasks after (Function.update phases thread .stranger) := by
  have kind : SignInPhase.stranger = .stranger ↔ phases thread = .stranger := by
    simp [isStranger]
  cases action with
  | post path body =>
      have unguessed := kept path body reply rfl
      cases path with
      | requests =>
          obtain ⟨books, performed, rfl⟩ := performed
          rcases checks.registers performed with
            ⟨-, rfl⟩ | ⟨requestId, challenge, carried, anew, -, rfl⟩
          · exact bound.same kind trivial
          · refine bound.register anew ?_ ?_ kind trivial
            · rintro drawn inSecrets rfl
              exact absurd ⟨drawn, inSecrets, Or.inl carried⟩ unguessed
            · exact fun isAgent => absurd ((bound.strangers thread).mp isStranger) isAgent
      | claim =>
          obtain ⟨books, performed, rfl⟩ := performed
          have claimed := checks.claims performed
          unfold Claimed at claimed
          cases named : tokenOfReply reply with
          | error e =>
              rw [named] at claimed
              obtain rfl : books = world.toSignInBooks := claimed
              exact bound.same kind trivial
          | ok token =>
              rw [named] at claimed
              obtain ⟨approval, -, request, inRequests, verifier, -, spent, -, -, same, rfl⟩ :=
                claimed
              refine bound.quiet rfl rfl (fun _ kept => kept) (fun _ kept => kept) ?_
                (fun _ kept => Or.inl kept) kind trivial
              intro given inReleased
              rcases List.mem_cons.mp inReleased with rfl | before
              · refine Or.inr ⟨request, inRequests, rfl, fun isAgent => ?_⟩
                obtain ⟨own, inSecrets, under⟩ := bound.drawn request inRequests isAgent
                exact absurd ⟨(request.owner, own), inSecrets,
                  Or.inr ⟨verifier, spent, same.symm.trans under⟩⟩ unguessed
              · exact Or.inl before
  | approve requestId token =>
      obtain ⟨books, performed, rfl⟩ := performed
      obtain rfl := checks.approves performed
      exact bound.quiet rfl rfl (fun _ kept => List.mem_cons_of_mem _ kept) (fun _ kept => kept)
        (fun _ kept => Or.inl kept) (fun _ kept => Or.inl kept) kind trivial
  | _ => exact anybody.elim

theorem attributeText_registerBody (challenge : String) (port : Nat) :
    attributeText (registerBody challenge port) "code_challenge" = some challenge := by
  rfl

theorem attributeText_claimBody (code verifier : String) :
    attributeText (claimBody code verifier) "code_verifier" = some verifier := by
  rfl

theorem SignInBound.register_step (bound : SignInBound crates tasks world phases)
    {verifier : String} {port : Nat} {answer : Except String (HttpReply Value)}
    (holding : phases thread = .holding verifier)
    {books : SignInBooks ι} (performed : Registered thread world.toSignInBooks
      (registerBody (challengeFor crates verifier) port) answer books) :
    SignInBound crates tasks { world with toSignInBooks := books } (Function.update phases thread
      (signInNext crates (.holding verifier) (.post .requests
        (registerBody (challengeFor crates verifier) port)) answer)) := by
  have stands := bound.stands thread
  rw [holding] at stands
  obtain ⟨drawn, unused⟩ := stands
  rcases performed with ⟨⟨e, unnamed⟩, rfl⟩ | ⟨requestId, challenge, carried, anew, named, rfl⟩
  · simp only [signInNext, unnamed]
    exact bound.same (by simp [holding]) trivial
  · rw [attributeText_registerBody] at carried
    obtain rfl := Option.some.inj carried
    refine bound.register anew ?_ ?_ ?_ ?_
    · exact fun other inSecrets same => bound.apart _ drawn other inSecrets same
    · exact fun _ => ⟨verifier, drawn, rfl⟩
    · cases answered : requestIdOfReply answer with
      | error e => simp [signInNext, answered, holding]
      | ok id => simp [signInNext, answered, holding]
    · cases answered : requestIdOfReply answer with
      | error e => simp only [signInNext, answered]; trivial
      | ok id =>
          obtain rfl := named id answered
          simp only [signInNext, answered]
          refine ⟨drawn, ⟨_, List.mem_cons_self, rfl, rfl⟩, fun request kept same => ?_⟩
          rcases List.mem_cons.mp kept with rfl | kept
          · rfl
          · exact absurd same (unused request kept)

theorem SignInBound.claim_step (bound : SignInBound crates tasks world phases)
    {verifier requestId code : String} {answer : Except String (HttpReply Value)}
    (coded : phases thread = .coded verifier requestId code)
    {books : SignInBooks ι} (performed : Claimed crates thread world.toSignInBooks
      (claimBody code verifier) answer books) :
    SignInBound crates tasks { world with toSignInBooks := books } (Function.update phases thread
      (signInNext crates (.coded verifier requestId code) (.post .claim
        (claimBody code verifier)) answer)) := by
  have stands := bound.stands thread
  rw [coded] at stands
  obtain ⟨⟨drawn, own, sole⟩, opened⟩ := stands
  unfold Claimed at performed
  cases named : tokenOfReply answer with
  | error e =>
      rw [named] at performed
      obtain rfl : books = world.toSignInBooks := performed
      simp only [signInNext, named]
      exact bound.same (by simp [coded]) trivial
  | ok token =>
      rw [named] at performed
      obtain ⟨approval, inApprovals, request, inRequests, spent, -, carried, isToken, isFor, same,
        rfl⟩ := performed
      rw [attributeText_claimBody] at carried
      obtain rfl := Option.some.inj carried
      have isOwn : request.id = requestId := sole request inRequests same
      have isOwner : request.owner = thread :=
        bound.owned (thread, verifier) drawn request inRequests same
      simp only [signInNext, named]
      refine bound.quiet rfl rfl (fun _ kept => kept) (fun _ kept => kept) ?_
        (fun _ kept => Or.inl kept) (by simp [coded]) ?_
      · intro given inReleased
        rcases List.mem_cons.mp inReleased with rfl | before
        · exact Or.inr ⟨request, inRequests, rfl, fun _ => isOwner⟩
        · exact Or.inl before
      · exact ⟨opened, own, approval, inApprovals, isFor.trans isOwn, isToken⟩

theorem SignInBound.step (bound : SignInBound crates tasks world phases)
    (checks : server.ChecksVerifier crates)
    (allowed : signInAllowed crates (phases thread) action)
    (performed : performsSignIn server crates thread world action reply after)
    (anew : ∀ bytes, (⟨action, reply⟩ : SignInEvent) = ⟨.fillRandom, some bytes⟩ →
      DrawsAnew crates world (crates.encode bytes))
    (kept : (tasks thread).IsStranger → ∀ path body answer,
      (⟨action, reply⟩ : SignInEvent) = ⟨.post path body, answer⟩ →
        ¬ Guesses crates world body) :
    SignInBound crates tasks after (Function.update phases thread
      (signInNext crates (phases thread) action reply)) := by
  have stands := bound.stands thread
  cases at_ : phases thread with
  | stranger =>
      rw [at_] at allowed
      have stays : signInNext crates .stranger action reply = .stranger := by
        cases action <;> rfl
      rw [stays]
      exact bound.stranger_step checks at_ allowed performed (kept ((bound.strangers thread).mp at_))
  | fresh =>
      rw [at_] at allowed
      rcases allowed with harmless | rfl
      · rw [← at_]
        exact bound.harmless_step harmless (by simp [at_]) performed
      · cases reply with
        | none =>
            obtain rfl : after = world := performed
            exact bound.same (by simp [at_, signInNext]) trivial
        | some bytes =>
            obtain rfl : after = { world with
              secrets := (thread, crates.encode bytes) :: world.secrets } := performed
            exact bound.draw (anew bytes rfl) at_
  | holding verifier =>
      rw [at_] at allowed
      obtain ⟨port, rfl⟩ := allowed
      obtain ⟨books, performed, rfl⟩ := performed
      exact bound.register_step at_ (checks.registers performed)
  | registered verifier requestId =>
      rw [at_] at allowed stands
      rcases allowed with harmless | rfl
      · rw [← at_]
        exact bound.harmless_step harmless (by simp [at_]) performed
      · obtain rfl : after = { world with
          opened := (thread, loginPath requestId) :: world.opened } := performed
        exact bound.quiet rfl rfl (fun _ kept => kept) (fun _ kept => List.mem_cons_of_mem _ kept)
          (fun _ kept => Or.inl kept) (fun _ kept => Or.inl kept) (by simp [at_, signInNext])
          ⟨stands, List.mem_cons_self⟩
  | waiting verifier requestId =>
      rw [at_] at allowed stands
      obtain rfl := SignInEffect.harmless_keeps allowed performed
      have moves : signInNext crates (.waiting verifier requestId) action reply =
            .waiting verifier requestId ∨
          signInNext crates (.waiting verifier requestId) action reply = .ended ∨
          ∃ code, signInNext crates (.waiting verifier requestId) action reply =
            .coded verifier requestId code := by
        cases action with
        | readLine =>
            cases reply with
            | none => exact Or.inl rfl
            | some line =>
                simp only [signInNext]
                cases codeOfLine line with
                | none => exact Or.inr (Or.inl rfl)
                | some code => exact Or.inr (Or.inr ⟨code, rfl⟩)
        | _ => exact Or.inl rfl
      rcases moves with moves | moves | ⟨code, moves⟩ <;> rw [moves]
      · exact bound.same (by simp [at_]) stands
      · exact bound.same (by simp [at_]) trivial
      · exact bound.same (by simp [at_]) stands
  | coded verifier requestId code =>
      rw [at_] at allowed stands
      rcases allowed with harmless | rfl
      · rw [← at_]
        exact bound.harmless_step harmless (by simp [at_]) performed
      · obtain ⟨books, performed, rfl⟩ := performed
        exact bound.claim_step at_ (checks.claims performed)
  | claimed requestId token =>
      rw [at_] at allowed stands
      obtain rfl : action = .adoptToken token := allowed
      obtain rfl : after = { world with adopted := (thread, token) :: world.adopted } :=
        performed
      refine bound.quiet rfl rfl (fun _ kept => kept) (fun _ kept => kept)
        (fun _ kept => Or.inl kept) ?_ (by simp [at_, signInNext]) trivial
      intro taken inAdopted
      rcases List.mem_cons.mp inAdopted with rfl | before
      · exact Or.inr ⟨requestId, stands⟩
      · exact Or.inl before
  | ended =>
      rw [at_] at allowed
      rw [← at_]
      exact bound.harmless_step allowed (by simp [at_]) performed

end Steps

/-! ### The runs -/

omit [DecidableEq ι] in
theorem SignInBound.quiet_start (tasks : ι → SignInTask) :
    SignInBound crates tasks SignInWorld.quiet fun thread => (tasks thread).firstPhase where
  strangers := fun thread => by
    cases tasks thread <;> simp [SignInTask.firstPhase, SignInTask.IsStranger]
  ids := List.Pairwise.nil
  apart := fun _ kept => absurd kept List.not_mem_nil
  owned := fun _ kept => absurd kept List.not_mem_nil
  drawn := fun _ kept => absurd kept List.not_mem_nil
  stands := fun thread => by cases tasks thread <;> trivial
  released := fun _ kept => absurd kept List.not_mem_nil
  adopted := fun _ kept => absurd kept List.not_mem_nil

theorem sign_in_run_bound {server : SignInServer ι} (checks : server.ChecksVerifier crates)
    {config : SignInConfig ι} (reached : Reaches (signInSemantics server crates) (SecretsKept crates tasks)
      (Config.fresh SignInWorld.quiet fun thread => (tasks thread).program crates) config) :
    ∃ phases, SignInBound crates tasks config.shared phases := by
  have invariant := reached.invariant (SignInBound crates tasks)
    (fun thread => (tasks thread).conforms) (SignInBound.quiet_start tasks) ?_
  · exact ⟨_, invariant.2⟩
  · intro before thread action reply shared _ bound allowed performed met
    exact bound.step checks allowed performed met.1 met.2

/-- A token that a sign-in takes up was approved for the request that this sign-in made, and
whose page it opened; the token of a sign-in's request is given to nobody else. -/
theorem sign_in_binds_token (tasks : ι → SignInTask) {server : SignInServer ι}
    (checks : server.ChecksVerifier crates) {config : SignInConfig ι}
    (reached : Reaches (signInSemantics server crates) (SecretsKept crates tasks)
      (Config.fresh SignInWorld.quiet fun thread => (tasks thread).program crates) config) :
    (∀ thread token, (thread, token) ∈ config.shared.adopted →
      ∃ requestId, (thread, loginPath requestId) ∈ config.shared.opened ∧
        OwnRequest thread requestId config.shared ∧
        ApprovedToken requestId token config.shared) ∧
    ∀ thread requestId token, (thread, requestId, token) ∈ config.shared.released →
      ∀ request ∈ config.shared.requests, request.id = requestId →
        ¬ (tasks request.owner).IsStranger → request.owner = thread := by
  obtain ⟨phases, bound⟩ := sign_in_run_bound checks reached
  refine ⟨fun thread token taken => bound.adopted _ taken, ?_⟩
  intro thread requestId token given request inRequests isIts isAgent
  obtain ⟨other, inOthers, same, toOwner⟩ := bound.released _ given
  have apart : (config.shared.requests.map RegisteredRequest.id).Nodup :=
    List.pairwise_map.mpr (bound.ids.imp fun differ => differ.symm)
  obtain rfl : other = request :=
    List.inj_on_of_nodup_map apart inOthers inRequests (same.trans isIts.symm)
  exact toOwner isAgent

/-! Ada approves the request of one sign-in. -/

/-- A server that makes one request, r1, and checks the verifier of every claim. -/
private def oneRequestServer : SignInServer Bool where
  registers := fun thread books body reply after =>
    ∃ challenge, attributeText body "code_challenge" = some challenge ∧ books.requests = [] ∧
      reply = attributesReply [("request_id", .string "r1")] ∧
      after = { books with
        requests := [{ owner := thread, id := "r1", challenge := challenge }] }
  claims := Claimed rfcCrates
  approves := fun books requestId token code after =>
    after = { books with
      approvals := { code := code, requestId := requestId, token := token } :: books.approvals }

private theorem oneRequestServer_checks : oneRequestServer.ChecksVerifier rfcCrates where
  registers := by
    rintro thread books body reply after ⟨challenge, carried, none, rfl, rfl⟩
    refine Or.inr ⟨"r1", challenge, carried, ?_, fun named same => (Except.ok.inj same).symm, ?_⟩
    · rw [none]
      exact nofun
    · rw [none]
  claims := fun claimed => claimed
  approves := fun approved => approved

private def adasApproval : SignInProgram Unit := .act (.approve "r1" "token") fun _ => .done ()

private def adasTasks : Bool → SignInTask
  | true => .signIn false "https://app.klaay.com"
  | false => .stranger adasApproval ⟨trivial, fun _ => trivial⟩

private def adasCodeLine : String := "GET /?code=c1 HTTP/1.1\r\n"

private theorem adasCodeLine_code : codeOfLine adasCodeLine = some "c1" := by
  decide +kernel

private theorem adas_sign_in :
    ∃ config : SignInConfig Bool,
      Reaches (signInSemantics oneRequestServer rfcCrates) (SecretsKept rfcCrates adasTasks)
        (Config.fresh SignInWorld.quiet fun thread => (adasTasks thread).program rfcCrates)
        config ∧
      (true, "token") ∈ config.shared.adopted ∧ (true, "r1", "token") ∈ config.shared.released := by
  have calm : ∀ (before : SignInConfig Bool) thread (event : SignInEvent),
      event.action ≠ .fillRandom →
      ((adasTasks thread).IsStranger → ∀ path body, event.action ≠ .post path body) →
      SecretsKept rfcCrates adasTasks before thread event := by
    intro before thread event notDraw notPost
    refine ⟨?_, ?_⟩
    · rintro bytes rfl
      exact absurd rfl notDraw
    · rintro isStranger path body reply rfl
      exact absurd rfl (notPost isStranger path body)
  have started : Reaches (signInSemantics oneRequestServer rfcCrates) (SecretsKept rfcCrates adasTasks)
      (Config.fresh SignInWorld.quiet fun thread => (adasTasks thread).program rfcCrates) _ :=
    Reaches.refl _
  have bound := started.perform true ⟨.bindLoopback, .ok ()⟩ rfl rfl (calm _ _ _ nofun nofun)
  have blocking := bound.perform true ⟨.setBlocking, .ok ()⟩ rfl rfl (calm _ _ _ nofun nofun)
  have port := blocking.perform true ⟨.localPort, .ok 49152⟩ rfl rfl (calm _ _ _ nofun nofun)
  have drawn := port.perform true ⟨.fillRandom, some rfcSecret⟩ rfl rfl
    ⟨fun _ _ => ⟨nofun, nofun⟩, nofun⟩
  have registered := drawn.perform true
    ⟨.post .requests (registerBody (challengeFor rfcCrates rfcVerifier) 49152),
      attributesReply [("request_id", .string "r1")]⟩ rfl
    ⟨_, ⟨_, rfl, rfl, rfl, rfl⟩, rfl⟩
    (calm _ _ _ nofun nofun)
  have opened := registered.perform true ⟨.openFrontend (loginPath "r1"), ()⟩ rfl rfl
    (calm _ _ _ nofun nofun)
  have approved := opened.perform false ⟨.approve "r1" "token", "c1"⟩ rfl
    ⟨_, rfl, rfl⟩ (calm _ _ _ nofun fun _ _ _ => nofun)
  have accepted := approved.perform true ⟨.accept, true⟩ rfl rfl (calm _ _ _ nofun nofun)
  have read := accepted.perform true ⟨.readLine, some adasCodeLine⟩ rfl rfl
    (calm _ _ _ nofun nofun)
  have answered := read.perform true
    ⟨.respond (pageReply (if (codeOfLine adasCodeLine).isSome then signedInPage
      else signInFailedPage)), ()⟩ rfl rfl (calm _ _ _ nofun nofun)
  have claiming : (spendCode rfcVerifier (codeOfLine adasCodeLine) : SignInProgram Unit) =
      claimToken "c1" rfcVerifier >>= settleClaim := by
    rw [adasCodeLine_code]
    rfl
  have claimed := answered.perform true
    ⟨.post .claim (claimBody "c1" rfcVerifier), attributesReply [("token", .string "token")]⟩
    claiming
    ⟨_, ⟨_, List.mem_cons_self, _, List.mem_cons_self, rfcVerifier, rfl, rfl, rfl, rfl, rfl, rfl⟩,
      rfl⟩
    (calm _ _ _ nofun nofun)
  have adopted := claimed.perform true ⟨.adoptToken "token", ()⟩ rfl rfl
    (calm _ _ _ nofun nofun)
  exact ⟨_, adopted, List.mem_cons_self, List.mem_cons_self⟩

theorem sign_in_binds_adas_token :
    ∃ config : SignInConfig Bool,
      (true, "token") ∈ config.shared.adopted ∧
      (∃ requestId, (true, loginPath requestId) ∈ config.shared.opened ∧
        OwnRequest true requestId config.shared ∧
        ApprovedToken requestId "token" config.shared) ∧
      ∀ request ∈ config.shared.requests, request.id = "r1" →
        ¬ (adasTasks request.owner).IsStranger → request.owner = true := by
  obtain ⟨config, reached, adopted, released⟩ := adas_sign_in
  have binds := sign_in_binds_token adasTasks oneRequestServer_checks reached
  exact ⟨config, adopted, binds.1 true "token" adopted, binds.2 true "r1" "token" released⟩

end KlaayGuard
