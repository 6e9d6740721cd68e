import MiniCloud.Digest
import MiniCloud.Lib.Files
import MiniCloud.Lib.Machine

/-!
# The artifact store

`internal/artifact/store.go`: blobs named by their SHA-256, published from a temporary file by a
hard link. Any number of `Put` calls run at once. A call is a small machine that makes one file
operation at a time until it holds its digest lock; the section under the lock is one move, and so
is the one of `OpenVerified`. Every operation may fail, and between moves the environment may
replace the bytes of a blob.

`Put` streams its source through `io.LimitReader`, so the model reads pieces of any size out of the
bytes that the source delivers before it ends, and it ends in `io.EOF` or in an error. A failed
operation carries the error the operating system chose. `Close` is not modelled: it only makes later
calls fail.
-/

namespace MiniCloud.Artifact

open Lib Digest

def errTooLarge : GoError := .text "artifact exceeds size limit"
def errDigestMismatch : GoError := .text "artifact digest mismatch"
def errCorrupt : GoError := .text "artifact content is corrupt"

def defaultMaxArtifactBytes : Int := 32 * 2 ^ 20
def hardMaxArtifactBytes : Int := 256 * 2 ^ 20
def createAttempts : Nat := 10

/-- One immutable content-addressed blob. -/
structure Info where
  digest : SHA256
  size : Nat
  created : Bool
  deriving DecidableEq

def noInfo : Info := ⟨[], 0, false⟩

/-- `errors.Join` of two errors that may be nil. -/
def joinErr : Option GoError → Option GoError → Option GoError
  | some a, some b => some (.join a b)
  | some a, none => some a
  | none, b => b

/-! ## Names -/

def hexDigest (value : SHA256) : GoString := value.drop scheme.length

def blobPath (value : SHA256) : GoString :=
  "blobs/sha256/" ++ (hexDigest value).take 2 ++ "/" ++ (hexDigest value).drop 2

def temporaryName (random : GoString) : GoString := "tmp/" ++ Sha256.hex random ++ ".upload"

/-! ## Verification -/

/-- Why a blob was not verified: its bytes are wrong, or they could not be read. -/
inductive VerifyFailure where
  | corrupt (err : GoError)
  | other (err : GoError)

/-- Read at most one byte more than the limit, and compare the digest. -/
def verifyFile (fault : Option GoError) (maxBytes : Nat) (expected : SHA256) (bytes : GoString) :
    Except VerifyFailure Info :=
  match fault with
  | some err => .error (.other (.wrap "verifying artifact" err))
  | none =>
    let read := bytes.take (maxBytes + 1)
    if maxBytes < read.length then .error (.corrupt errCorrupt)
    else if sum read ≠ expected then .error (.corrupt errCorrupt)
    else .ok ⟨expected, read.length, false⟩

/-- Which operations of a section under the digest lock fail. -/
structure Faults where
  mkdir : Option GoError
  link : Option GoError
  openFile : Option GoError
  read : Option GoError
  seek : Option GoError
  close : Option GoError
  remove : Option GoError
  syncRemoval : Option GoError
  relink : Option GoError
  sync : Option GoError
  unlink : Option GoError

def removeCorrupt (faults : Faults) (expected : SHA256) (files : Files) :
    Option GoError × Files :=
  match faults.remove with
  | some err => (some (.wrap "removing corrupt artifact" err), files)
  | none =>
    (faults.syncRemoval.map (.wrap "syncing artifact removal"), files.remove (blobPath expected))

/-- What follows the verification of an open blob that failed. -/
def afterVerify (faults : Faults) (expected : SHA256) (files : Files) :
    VerifyFailure → VerifyFailure × Files
  | .corrupt err =>
    let (removeErr, files) := removeCorrupt faults expected files
    let joined := joinErr (joinErr (some err) faults.close) removeErr
    (.corrupt (joined.getD err), files)
  | .other err => (.other ((joinErr (some err) faults.close).getD err), files)

/-- An existing path, with the digest lock held. -/
def verifyLocked (faults : Faults) (maxBytes : Nat) (expected : SHA256) (files : Files) :
    Except VerifyFailure Info × Files :=
  match faults.openFile, files.read? (blobPath expected) with
  | some err, _ => (.error (.other (.wrap "opening existing artifact" err)), files)
  | none, none =>
    (.error (.other (.wrap "opening existing artifact" (.text "file does not exist"))), files)
  | none, some bytes =>
    match verifyFile faults.read maxBytes expected bytes with
    | .error failure =>
      let (failure, files) := afterVerify faults expected files failure
      (.error failure, files)
    | .ok info =>
      match faults.close with
      | some err => (.error (.other (.wrap "closing existing artifact" err)), files)
      | none => (.ok info, files)

/-! ## Put -/

structure Temporary where
  name : GoString
  inode : Nat
  deriving DecidableEq

/-- What `Put` returns. -/
structure Returned where
  info : Info
  err : Option GoError
  deriving DecidableEq

/-- Where a call of `Put` stands. -/
inductive Phase where
  | creating (attempts : Nat)
  | copying (temporary : Temporary) (received : GoString)
  | filled (temporary : Temporary) (received : GoString)
  | synced (temporary : Temporary) (received : GoString)
  | closed (temporary : Temporary) (received : GoString)
  /-- The deferred function: what is still to be closed and removed. -/
  | leaving (temporary : Temporary) (isOpen present : Bool) (result : Returned)
  | returned (result : Returned)
  deriving DecidableEq

structure Put where
  expected : SHA256
  /-- The bytes that the source delivers. -/
  source : GoString
  /-- How it ends: nil is `io.EOF`. -/
  ending : Option GoError
  phase : Phase
  deriving DecidableEq

structure Store where
  maxBytes : Nat
  files : Files
  puts : GoMap Nat Put

/-- `Open` on the files that are already below the root; preparing directories is left out. -/
def openStore (root : GoString) (maxArtifactBytes : Int) (files : Files) : Except GoError Store :=
  let maxBytes := if maxArtifactBytes = 0 then defaultMaxArtifactBytes else maxArtifactBytes
  if root = [] then .error (.text "artifact root is required")
  else if maxBytes < 1 ∨ maxBytes > hardMaxArtifactBytes then
    .error (.text "artifact size limit must be between 1 byte and 256 MiB")
  else .ok ⟨maxBytes.toNat, files, ∅⟩

def failed (err : GoError) : Returned := ⟨noInfo, some err⟩

/-- `validateDigest`, and the first phase. -/
def begin (expected : SHA256) (source : GoString) (ending : Option GoError) : Put :=
  ⟨expected, source, ending,
    match parseSHA256 expected with
    | .error err => .returned (failed (.wrap "validating artifact digest" err))
    | .ok _ => .creating createAttempts⟩

inductive CreateFault where
  | random (err : GoError)
  | openFile (err : GoError)

/-- One turn of the loop of `createTemporary`. -/
def createTemporary (attempts : Nat) (random : GoString) (fault : Option CreateFault)
    (files : Files) : Phase × Files :=
  match fault with
  | some (.random err) =>
    (.returned (failed (.wrap "generating temporary artifact name" err)), files)
  | some (.openFile err) => (.returned (failed (.wrap "creating temporary artifact" err)), files)
  | none =>
    let name := temporaryName random
    match files.names.get? name with
    | none => (.copying ⟨name, files.next⟩ [], files.create name)
    | some _ =>
      if attempts ≤ 1 then
        (.returned (failed (.text "temporary artifact name collisions exhausted")), files)
      else (.creating (attempts - 1), files)

/-- What follows the end of the stream. -/
def received (maxBytes : Nat) (expected : SHA256) (temporary : Temporary) (bytes : GoString) :
    Phase :=
  if maxBytes < bytes.length then .leaving temporary true true (failed errTooLarge)
  else if sum bytes ≠ expected then .leaving temporary true true (failed errDigestMismatch)
  else .filled temporary bytes

/-- How much of a piece a failing write has written. -/
structure WriteFault where
  err : GoError
  written : Nat

/--
One turn of the copy loop: a piece of at most `size` bytes is read, then written, then hashed. The
stream is over at one byte more than the limit.
-/
def copy (maxBytes : Nat) (put : Put) (temporary : Temporary) (bytes : GoString) (size : Nat)
    (readFault : Option GoError) (writeFault : Option WriteFault) (files : Files) :
    Phase × Files :=
  let writing (err : GoError) : Phase :=
    .leaving temporary true true (failed (.wrap "writing temporary artifact" err))
  let piece := (put.source.drop bytes.length).take (min (size + 1) (maxBytes + 1 - bytes.length))
  if maxBytes + 1 ≤ bytes.length then (received maxBytes put.expected temporary bytes, files)
  else
    match readFault with
    | some err => (writing err, files)
    | none =>
      if put.source.length ≤ bytes.length then
        match put.ending with
        | some err => (writing err, files)
        | none => (received maxBytes put.expected temporary bytes, files)
      else
        match writeFault with
        | some fault =>
          (writing fault.err,
            files.write temporary.inode
              (files.contents temporary.inode ++ piece.take fault.written))
        | none =>
          (.copying temporary (bytes ++ piece),
            files.write temporary.inode (files.contents temporary.inode ++ piece))

/-- The end of a publication: the blob is linked, and the temporary name goes. -/
def published (faults : Faults) (expected : SHA256) (temporary : Temporary) (bytes : GoString)
    (files : Files) : Phase × Files :=
  match faults.sync with
  | some err =>
    (.leaving temporary false true (failed (.wrap "syncing artifact directory" err)), files)
  | none =>
    match faults.unlink with
    | some err =>
      (.leaving temporary false true (failed (.wrap "removing published temporary artifact" err)),
        files)
    | none =>
      (.leaving temporary false false ⟨⟨expected, bytes.length, true⟩, none⟩,
        files.remove temporary.name)

/-- `root.Link` of a name to the blob: nothing if it fails or the blob exists. -/
def linkBlob (fault : Option GoError) (expected : SHA256) (temporary : Temporary) (files : Files) :
    Except (Option GoError) Files :=
  match fault, files.names.get? (blobPath expected) with
  | some err, _ => .error (some err)
  | none, some _ => .error none
  | none, none => .ok (files.link temporary.name (blobPath expected))

def publishing (recoveryErr : Option GoError) (err : GoError) : GoError :=
  (joinErr recoveryErr (some (.wrap "publishing artifact" err))).getD err

/-- The section of `Put` under the digest lock. -/
def publish (faults : Faults) (maxBytes : Nat) (expected : SHA256) (temporary : Temporary)
    (bytes : GoString) (files : Files) : Phase × Files :=
  let leave (err : GoError) (files : Files) : Phase × Files :=
    (.leaving temporary false true (failed err), files)
  match faults.mkdir with
  | some err => leave (.wrap "creating artifact shard" err) files
  | none =>
    match linkBlob faults.link expected temporary files with
    | .ok files => published faults expected temporary bytes files
    | .error (some err) => leave (publishing none err) files
    | .error none =>
      match verifyLocked faults maxBytes expected files with
      | (.ok info, files) =>
        (.leaving temporary false true ⟨⟨info.digest, info.size, false⟩, none⟩, files)
      | (.error (.other err), files) => leave err files
      | (.error (.corrupt recoveryErr), files) =>
        match linkBlob faults.relink expected temporary files with
        | .ok files => published faults expected temporary bytes files
        | .error err => leave (publishing recoveryErr (err.getD (.text "file exists"))) files

/-- One operation of the deferred function. -/
def leave (temporary : Temporary) (isOpen present : Bool) (result : Returned)
    (fault : Option GoError) (files : Files) : Phase × Files :=
  if isOpen then
    (.leaving temporary false present ⟨result.info, joinErr result.err fault⟩, files)
  else if present then
    match fault with
    | some err =>
      (.returned ⟨result.info,
        joinErr result.err (some (.wrap "removing temporary artifact" err))⟩, files)
    | none => (.returned result, files.remove temporary.name)
  else (.returned result, files)

/-! ## Moves -/

inductive Move where
  | start (id : Nat) (expected : SHA256) (source : GoString) (ending : Option GoError)
  | create (id : Nat) (random : GoString) (fault : Option CreateFault)
  | copy (id size : Nat) (readFault : Option GoError) (writeFault : Option WriteFault)
  | sync (id : Nat) (fault : Option GoError)
  | close (id : Nat) (fault : Option GoError)
  | publish (id : Nat) (faults : Faults)
  | leave (id : Nat) (fault : Option GoError)
  | openVerified (expected : SHA256) (faults : Faults)
  /-- The environment replaces the bytes of a blob. -/
  | corrupt (digest : SHA256) (bytes : GoString)

/-- What `OpenVerified` returns: the bytes of the open file, and their description. -/
inductive Answer where
  | nothing
  | opened (result : Except GoError (GoString × Info))

/-- What one move does to the call it is a move of; nothing if the call stands elsewhere. -/
def Put.advance (put : Put) (maxBytes : Nat) (files : Files) : Move → Phase × Files
  | .create _ random fault =>
    match put.phase with
    | .creating attempts => createTemporary attempts random fault files
    | phase => (phase, files)
  | .copy _ size readFault writeFault =>
    match put.phase with
    | .copying temporary bytes =>
      Artifact.copy maxBytes put temporary bytes size readFault writeFault files
    | phase => (phase, files)
  | .sync _ fault =>
    match put.phase, fault with
    | .filled temporary _, some err =>
      (.leaving temporary true true (failed (.wrap "syncing temporary artifact" err)), files)
    | .filled temporary bytes, none => (.synced temporary bytes, files)
    | phase, _ => (phase, files)
  | .close _ fault =>
    match put.phase, fault with
    | .synced temporary _, some err =>
      (.leaving temporary true true (failed (.wrap "closing temporary artifact" err)), files)
    | .synced temporary bytes, none => (.closed temporary bytes, files)
    | phase, _ => (phase, files)
  | .publish _ faults =>
    match put.phase with
    | .closed temporary bytes =>
      Artifact.publish faults maxBytes put.expected temporary bytes files
    | phase => (phase, files)
  | .leave _ fault =>
    match put.phase with
    | .leaving temporary isOpen present result =>
      Artifact.leave temporary isOpen present result fault files
    | phase => (phase, files)
  | _ => (put.phase, files)

/-- The section of `OpenVerified` under the digest lock. -/
def openVerified (faults : Faults) (maxBytes : Nat) (expected : SHA256) (files : Files) :
    Except GoError (GoString × Info) × Files :=
  match parseSHA256 expected with
  | .error err => (.error (.wrap "validating artifact digest" err), files)
  | .ok _ =>
    match faults.openFile, files.read? (blobPath expected) with
    | some err, _ => (.error (.wrap "opening artifact" err), files)
    | none, none => (.error (.wrap "opening artifact" (.text "file does not exist")), files)
    | none, some bytes =>
      match verifyFile faults.read maxBytes expected bytes with
      | .error failure =>
        match afterVerify faults expected files failure with
        | (.corrupt err, files) => (.error err, files)
        | (.other err, files) => (.error err, files)
      | .ok info =>
        match faults.seek with
        | some err =>
          (.error ((joinErr (some (.wrap "rewinding artifact" err)) faults.close).getD err), files)
        | none => (.ok (bytes, info), files)

/-- The call a move belongs to. -/
def Move.call : Move → Option Nat
  | .create id _ _ | .copy id _ _ _ | .sync id _ | .close id _ | .publish id _ | .leave id _ =>
    some id
  | _ => none

def Store.advance (s : Store) (id : Nat) (move : Move) : Store :=
  match s.puts.get? id with
  | none => s
  | some put =>
    { s with
      files := (put.advance s.maxBytes s.files move).2
      puts := s.puts.set id { put with phase := (put.advance s.maxBytes s.files move).1 } }

def Store.step (s : Store) : Move → Answer × Store
  | .start id expected source ending =>
    match s.puts.get? id with
    | none => (.nothing, { s with puts := s.puts.set id (begin expected source ending) })
    | some _ => (.nothing, s)
  | .openVerified expected faults =>
    (.opened (openVerified faults s.maxBytes expected s.files).1,
      { s with files := (openVerified faults s.maxBytes expected s.files).2 })
  | .corrupt digest bytes =>
    match s.files.names.get? (blobPath digest) with
    | none => (.nothing, s)
    | some inode => (.nothing, { s with files := s.files.write inode bytes })
  | .create id random fault => (.nothing, s.advance id (.create id random fault))
  | .copy id size readFault writeFault =>
    (.nothing, s.advance id (.copy id size readFault writeFault))
  | .sync id fault => (.nothing, s.advance id (.sync id fault))
  | .close id fault => (.nothing, s.advance id (.close id fault))
  | .publish id faults => (.nothing, s.advance id (.publish id faults))
  | .leave id fault => (.nothing, s.advance id (.leave id fault))

def storeMachine : Machine Store Move Answer := ⟨Store.step⟩

abbrev StoreEvent := Lib.Event Store Move Answer

/-- The bytes that a blob name refers to. -/
def Store.blob? (s : Store) (digest : SHA256) : Option GoString := s.files.read? (blobPath digest)

end MiniCloud.Artifact
