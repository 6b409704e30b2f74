/-
Claiming the agent lock: the attempts of a process, and the kernel it makes them
to.

A claim opens the file, locks the inode it got and then looks whether the name
still leads there.  Any number of processes claim one lock file beside an
environment that deletes it, replaces it and ends processes.
-/

import KlaayGuard.Library.FileLock
import KlaayGuard.Library.Interleaving

set_option autoImplicit false

namespace KlaayGuard

open EffectProgram FileLock

structure FileId : Type where
  dev : Nat
  ino : Nat
  deriving DecidableEq, Repr

inductive FlockReply : Type where
  | locked
  | wouldBlock
  | failed (message : String)

inductive StatError : Type where
  | notFound
  | other (message : String)

/-- The calls of a claim, and what the environment does to the file and to the
processes. -/
inductive LockAction (ι : Type) : Type where
  | createDirAll (dir : String)
  /-- `open` with `create`. -/
  | openFile
  | flock
  /-- `metadata` of the open file. -/
  | fstat
  /-- `metadata` of the path. -/
  | stat
  /-- The file goes out of scope, and its lock with it. -/
  | drop
  | sleep (backoff : Nat)
  | delete
  | replace
  | exit (process : ι)

variable {ι : Type}

@[reducible] def LockAction.Reply : LockAction ι → Type
  | .createDirAll _ => Except String Unit
  | .openFile => Except String Unit
  | .flock => FlockReply
  | .fstat => Except String FileId
  | .stat => Except StatError FileId
  | .drop => Unit
  | .sleep _ => Unit
  | .delete => Unit
  | .replace => Unit
  | .exit _ => Unit

abbrev LockProgram (ι α : Type) : Type := Prog (LockAction ι) LockAction.Reply α

abbrev LockEvent (ι : Type) : Type := Event (LockAction ι) LockAction.Reply

abbrev LockAction.perform (action : LockAction ι) : LockProgram ι action.Reply :=
  Prog.perform action

open LockAction (perform)

inductive Claim : Type where
  | held
  | taken
  | unavailable (why : String)
  deriving DecidableEq, Repr

/-- What a claim uses of its path: the parent directory, and the path as `{:?}`
prints it. -/
structure LockPath : Type where
  parent : Option String
  debug : String

def createParent (path : LockPath) : LockProgram ι (Except String Unit) :=
  match path.parent with
  | some dir => perform (.createDirAll dir)
  | none => pure (.ok ())

def sameInode : LockProgram ι (Except String Bool) := do
  match ← perform .fstat with
  | .error e => pure (.error e)
  | .ok held =>
      match ← perform .stat with
      | .ok onDisk => pure (.ok (held.dev == onDisk.dev && held.ino == onDisk.ino))
      | .error .notFound => pure (.ok false)
      | .error (.other e) => pure (.error e)

def tryClaim (path : LockPath) : LockProgram ι (Except String Bool) := do
  match ← createParent path with
  | .error e => pure (.error e)
  | .ok () =>
      match ← perform .openFile with
      | .error e => pure (.error e)
      | .ok () =>
          match ← perform .flock with
          | .wouldBlock => do
              perform .drop
              pure (.ok false)
          | .failed e => do
              perform .drop
              pure (.error e)
          | .locked =>
              match ← sameInode with
              | .error e => do
                  perform .drop
                  pure (.error e)
              | .ok false => do
                  perform .drop
                  pure (.ok false)
              | .ok true => pure (.ok true)

def claimAgentLockFrom (path : LockPath) (backoff : Nat) : Nat → LockProgram ι Claim
  | 0 => pure .taken
  | left + 1 => do
      match ← tryClaim path with
      | .ok true => pure .held
      | .ok false =>
          if 0 < left ∧ backoff ≠ 0 then do
            perform (.sleep backoff)
            claimAgentLockFrom path backoff left
          else claimAgentLockFrom path backoff left
      | .error e => pure (.unavailable (path.debug ++ ": " ++ e))

def claimAgentLock (path : LockPath) (attempts backoff : Nat) : LockProgram ι Claim :=
  claimAgentLockFrom path backoff (max attempts 1)

inductive Party (ι : Type) : Type where
  | agent (process : ι)
  | environment
  deriving DecidableEq, Repr

inductive Disturbance (ι : Type) : Type where
  | delete
  | replace
  | exit (process : ι)

def Disturbance.action : Disturbance ι → LockAction ι
  | .delete => .delete
  | .replace => .replace
  | .exit process => .exit process

def disturb : List (Disturbance ι) → LockProgram ι (Option Claim)
  | [] => .done none
  | next :: rest => .act next.action fun _ => disturb rest

structure ClaimCall : Type where
  attempts : Nat
  backoff : Nat

def Party.program (path : LockPath) (calls : ι → ClaimCall)
    (disturbances : List (Disturbance ι)) : Party ι → LockProgram ι (Option Claim)
  | .agent process => do
      let claim ← claimAgentLock path (calls process).attempts (calls process).backoff
      pure (some claim)
  | .environment => disturb disturbances

abbrev LockKernel (ι : Type) : Type := Kernel ι FileId

abbrev LockConfig (ι : Type) : Type :=
  Config (LockKernel ι) (Party ι) (LockAction ι) LockAction.Reply (Option Claim)

variable [DecidableEq ι]

/-- The replies the kernel gives.  A call may always fail; `flock` is exclusive
for an inode, and a new file has an identity that no open descriptor has. -/
inductive kernelPerforms : Party ι → LockKernel ι → (action : LockAction ι) → action.Reply →
    LockKernel ι → Prop where
  | createDirAll {k : LockKernel ι} {process : ι} (alive : k.alive process = true) (dir : String)
      (reply : Except String Unit) :
      kernelPerforms (.agent process) k (.createDirAll dir) reply k
  | openNamed {k : LockKernel ι} {process : ι} {id : FileId} (alive : k.alive process = true)
      (named : k.name = some id) :
      kernelPerforms (.agent process) k .openFile (.ok ()) (k.openAs process id)
  | openCreated {k : LockKernel ι} {process : ι} {id : FileId} (alive : k.alive process = true)
      (absent : k.name = none) (unused : ∀ other, k.descriptor other ≠ some id) :
      kernelPerforms (.agent process) k .openFile (.ok ()) (k.openAs process id)
  | openFailed {k : LockKernel ι} {process : ι} (alive : k.alive process = true) (e : String) :
      kernelPerforms (.agent process) k .openFile (.error e) k
  | locked {k : LockKernel ι} {process : ι} {id : FileId} (alive : k.alive process = true)
      (opened : k.descriptor process = some id) (free : k.holder id = none) :
      kernelPerforms (.agent process) k .flock .locked (k.lock process id)
  | wouldBlock {k : LockKernel ι} {process other : ι} {id : FileId}
      (alive : k.alive process = true) (opened : k.descriptor process = some id)
      (busy : k.holder id = some other) (differs : other ≠ process) :
      kernelPerforms (.agent process) k .flock .wouldBlock k
  | flockFailed {k : LockKernel ι} {process : ι} (alive : k.alive process = true) (e : String) :
      kernelPerforms (.agent process) k .flock (.failed e) k
  | fstat {k : LockKernel ι} {process : ι} {id : FileId} (alive : k.alive process = true)
      (opened : k.descriptor process = some id) :
      kernelPerforms (.agent process) k .fstat (.ok id) k
  | fstatFailed {k : LockKernel ι} {process : ι} (alive : k.alive process = true) (e : String) :
      kernelPerforms (.agent process) k .fstat (.error e) k
  | stat {k : LockKernel ι} {process : ι} {id : FileId} (alive : k.alive process = true)
      (named : k.name = some id) :
      kernelPerforms (.agent process) k .stat (.ok id) k
  | statNotFound {k : LockKernel ι} {process : ι} (alive : k.alive process = true)
      (absent : k.name = none) :
      kernelPerforms (.agent process) k .stat (.error .notFound) k
  | statFailed {k : LockKernel ι} {process : ι} (alive : k.alive process = true) (e : String) :
      kernelPerforms (.agent process) k .stat (.error (.other e)) k
  | drop {k : LockKernel ι} {process : ι} (alive : k.alive process = true) :
      kernelPerforms (.agent process) k .drop () (k.close process)
  | sleep {k : LockKernel ι} {process : ι} (alive : k.alive process = true) (backoff : Nat) :
      kernelPerforms (.agent process) k (.sleep backoff) () k
  | delete (k : LockKernel ι) : kernelPerforms .environment k .delete () (k.redirect none)
  -- A new file, or one that was moved away and comes back under the name.
  | replace (k : LockKernel ι) (id : FileId) :
      kernelPerforms .environment k .replace () (k.redirect (some id))
  | exit (k : LockKernel ι) (process : ι) :
      kernelPerforms .environment k (.exit process) () (k.exit process)

end KlaayGuard
