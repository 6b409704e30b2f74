/-
The secret of a sign-in stays with the agent until the claim.

Until it claims, a sign-in does the same for every secret with its challenge: nothing that it
sends, opens, shows or logs before tells more of the secret than the challenge.
-/

import KlaayGuard.SignInFlow
import KlaayGuard.Library.Concealment

set_option autoImplicit false

namespace KlaayGuard

open EffectProgram Prog

variable {crates : SignInCrates}

def SignInEffect.IsClaim : SignInEffect → Prop
  | .post .claim _ => True
  | _ => False

/-- Replies that differ at most in a secret, and not in its challenge. -/
def SameChallenge (crates : SignInCrates) :
    (action : SignInEffect) → action.Reply → action.Reply → Prop
  | .fillRandom, left, right =>
      left.map (fun bytes => challengeFor crates (crates.encode bytes)) =
        right.map fun bytes => challengeFor crates (crates.encode bytes)
  | _, left, right => left = right

def SamePending (crates : SignInCrates) :
    Except String (String × String) → Except String (String × String) → Prop
  | .ok (leftId, left), .ok (rightId, right) =>
      leftId = rightId ∧ challengeFor crates left = challengeFor crates right
  | .error left, .error right => left = right
  | _, _ => False

abbrev ConcealsSecret {α : Type} (crates : SignInCrates) (ends : α → α → Prop)
    (left right : SignInProgram α) : Prop :=
  Alike SignInEffect.IsClaim (SameChallenge crates) ends left right

def SignInEffect.drawsNothing (action : SignInEffect) : Prop := action ≠ .fillRandom

theorem SameChallenge.eq {action : SignInEffect} {left right : action.Reply}
    (drawsNothing : action.drawsNothing) (same : SameChallenge crates action left right) :
    left = right := by
  cases action with
  | fillRandom => exact absurd rfl drawsNothing
  | _ => exact same

theorem ConcealsSecret.of_only {α : Type} {program : SignInProgram α}
    (only : program.Only SignInEffect.drawsNothing) : ConcealsSecret crates Eq program program :=
  Alike.of_only only fun _ _ _ drawsNothing same => same.eq drawsNothing

/-- Once the secret is drawn, its challenge is all that the request carries. -/
theorem registerSignIn_conceals {left right : String} (port : Nat)
    (same : challengeFor crates left = challengeFor crates right) :
    ConcealsSecret crates (SamePending crates)
      (registerSignIn crates port left) (registerSignIn crates port right) := by
  unfold registerSignIn
  rw [same]
  refine .act fun response other equal => ?_
  obtain rfl : response = other := equal
  refine .done ?_
  cases requestIdOfReply response with
  | error e => rfl
  | ok requestId => exact ⟨rfl, same⟩

theorem startSignIn_conceals :
    ConcealsSecret crates (SamePending crates) (startSignIn crates) (startSignIn crates) := by
  refine .act fun bound other same => ?_
  obtain rfl : bound = other := same
  cases bound with
  | error e => exact .done rfl
  | ok _ =>
      refine .act fun blocking other same => ?_
      obtain rfl : blocking = other := same
      cases blocking with
      | error e => exact .done rfl
      | ok _ =>
          refine .act fun port other same => ?_
          obtain rfl : port = other := same
          cases port with
          | error e => exact .done rfl
          | ok port =>
              refine .act fun left right same => ?_
              cases left with
              | none =>
                  cases right with
                  | none => exact .done rfl
                  | some bytes => cases same
              | some left =>
                  cases right with
                  | none => cases same
                  | some right => exact registerSignIn_conceals port (Option.some.inj same)

theorem offerSignInLink_drawsNothing (linux : Bool) (url : String) :
    (offerSignInLink linux url).Only SignInEffect.drawsNothing := by
  cases linux with
  | false => trivial
  | true => exact ⟨nofun, fun _ => ⟨nofun, fun _ => trivial⟩⟩

theorem waitForCode_drawsNothing : waitForCode.Only SignInEffect.drawsNothing := by
  refine ⟨nofun, fun accepted => ?_⟩
  cases accepted with
  | false => trivial
  | true =>
      refine ⟨nofun, fun line => ?_⟩
      cases line with
      | none => trivial
      | some line => exact ⟨nofun, fun _ => trivial⟩

theorem spendCode_conceals {left right : String} (code : Option String) :
    ConcealsSecret crates Eq (spendCode left code) (spendCode right code) := by
  cases code with
  | none => exact ConcealsSecret.of_only ⟨nofun, fun _ => trivial⟩
  | some code => exact .stopped trivial trivial

/-- Whoever sees everything that a sign-in does before its claim cannot tell its secret from
another one with the same challenge. -/
theorem sign_in_conceals_secret (linux : Bool) (frontend : String)
    (events others : List SignInEvent)
    (alike : List.Forall₂ (AlikeEvent (SameChallenge crates)) events others)
    (unclaimed : ∀ event ∈ events, ¬ event.action.IsClaim)
    (run : Begins AnyReply (openSignIn crates linux frontend) () events ()) :
    Begins AnyReply (openSignIn crates linux frontend) () others () := by
  have conceals : ConcealsSecret crates Eq (openSignIn crates linux frontend)
      (openSignIn crates linux frontend) := by
    refine startSignIn_conceals.bind ?_
    rintro (left | ⟨leftId, left⟩) (right | ⟨rightId, right⟩) same
    · obtain rfl : left = right := same
      exact ConcealsSecret.of_only ⟨nofun, fun _ => ⟨nofun, fun _ => trivial⟩⟩
    · exact same.elim
    · exact same.elim
    · obtain ⟨rfl, -⟩ := same
      refine (ConcealsSecret.of_only (offerSignInLink_drawsNothing linux _)).bind ?_
      rintro _ _ rfl
      refine .act fun _ _ _ => ?_
      refine (ConcealsSecret.of_only waitForCode_drawsNothing).bind ?_
      rintro code _ rfl
      exact spendCode_conceals code
  exact conceals.begins run alike unclaimed

/-! Another secret, where the digest has a collision. -/

private def zeroSecret : List UInt8 := List.replicate 32 0

private def collidingCrates : SignInCrates where
  encode := fun bytes =>
    if bytes = zeroSecret then "AAAAAAAAAAAAAAAAAAAAAAAAAAAAAAAAAAAAAAAAAAA"
    else rfcCrates.encode bytes
  digest := fun _ => rfcDigest

private def pageOpened (secret : List UInt8) : List SignInEvent :=
  [⟨.bindLoopback, .ok ()⟩, ⟨.setBlocking, .ok ()⟩, ⟨.localPort, .ok 49152⟩,
    ⟨.fillRandom, some secret⟩,
    ⟨.post .requests (registerBody "E9Melhoa2OwvFrEMTJguCHaoeK1t8URWbuGJSstw-cM" 49152),
      attributesReply [("request_id", .string "r1")]⟩,
    ⟨.openFrontend (loginPath "r1"), ()⟩]

private theorem pageOpened_run :
    Begins AnyReply (openSignIn collidingCrates false "https://app.klaay.com") ()
      (pageOpened rfcSecret) () := by
  exact begins_anyReply <| begins_anyReply <| begins_anyReply <| begins_anyReply <|
    begins_anyReply <| begins_anyReply <| .here _ _

theorem sign_in_conceals_rfc_secret :
    rfcVerifier ≠ collidingCrates.encode zeroSecret ∧
      Begins AnyReply (openSignIn collidingCrates false "https://app.klaay.com") ()
        (pageOpened zeroSecret) () := by
  refine ⟨by decide, ?_⟩
  refine sign_in_conceals_secret false _ (pageOpened rfcSecret) (pageOpened zeroSecret) ?_ ?_
    pageOpened_run
  · refine .cons ⟨rfl⟩ <| .cons ⟨rfl⟩ <| .cons ⟨rfl⟩ <| .cons ⟨rfl⟩ <| .cons ⟨rfl⟩ <|
      .cons ⟨rfl⟩ .nil
  · intro event member
    simp only [pageOpened, List.mem_cons, List.not_mem_nil, or_false] at member
    rcases member with rfl | rfl | rfl | rfl | rfl | rfl <;> exact id

end KlaayGuard
