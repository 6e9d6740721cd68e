import MiniCloud.Artifact.Store

/-!
# Stores over one root directory

A root directory outlives the stores that are opened on it, and each of them has a size limit of its
own. Any number of stores may be open; each has its own digest locks, so calls on different stores
follow one another, while calls on one store run at once as in `Store.step`.

`Close` waits for the calls that run. A closed store refuses new ones.
-/

namespace MiniCloud.Artifact

open Lib Digest

def errClosed : GoError := .text "artifact store is closed"

/-- What a store has besides the files below its root. -/
structure Handle where
  maxBytes : Nat
  puts : GoMap Nat Put
  closed : Bool

structure Root where
  files : Files
  handles : GoMap Nat Handle

def Handle.store (handle : Handle) (files : Files) : Store := ⟨handle.maxBytes, files, handle.puts⟩

/-- A call that holds the read lock. -/
def Put.running (put : Put) : Bool :=
  match put.phase with
  | .returned _ => false
  | _ => true

inductive RootMove where
  | openStore (id : Nat) (path : GoString) (maxArtifactBytes : Int)
  | close (id : Nat)
  | act (id : Nat) (move : Move)

inductive RootAnswer where
  | nothing
  | refused (err : GoError)
  | did (answer : Answer)

def Root.with (root : Root) (id : Nat) (handle : Handle) (s : Store) : Root :=
  ⟨s.files, root.handles.set id { handle with puts := s.puts }⟩

/-- A new call on a closed store: its digest is looked at first. -/
def beginClosed (expected : SHA256) (source : GoString) (ending : Option GoError) : Put :=
  ⟨expected, source, ending,
    match parseSHA256 expected with
    | .error err => .returned (failed (.wrap "validating artifact digest" err))
    | .ok _ => .returned (failed errClosed)⟩

def Root.actClosed (root : Root) (id : Nat) (handle : Handle) : Move → RootAnswer × Root
  | .start call expected source ending =>
    match handle.puts.get? call with
    | none => (.nothing, root.with id handle
        { handle.store root.files with
          puts := handle.puts.set call (beginClosed expected source ending) })
    | some _ => (.nothing, root)
  | .openVerified expected _ =>
    match parseSHA256 expected with
    | .error err => (.refused (.wrap "validating artifact digest" err), root)
    | .ok _ => (.refused errClosed, root)
  | _ => (.nothing, root)

def Root.step (root : Root) : RootMove → RootAnswer × Root
  | .openStore id path maxArtifactBytes =>
    match root.handles.get? id, Artifact.openStore path maxArtifactBytes root.files with
    | some _, _ => (.nothing, root)
    | none, .error err => (.refused err, root)
    | none, .ok s => (.nothing, root.with id ⟨s.maxBytes, ∅, false⟩ s)
  | .close id =>
    match root.handles.get? id with
    | none => (.nothing, root)
    | some handle =>
      if handle.puts.toList.any fun call => call.2.running then (.nothing, root)
      else (.nothing, { root with handles := root.handles.set id { handle with closed := true } })
  | .act id move =>
    match root.handles.get? id with
    | none => (.nothing, root)
    | some handle =>
      if handle.closed then root.actClosed id handle move
      else
        (.did ((handle.store root.files).step move).1,
          root.with id handle ((handle.store root.files).step move).2)

def rootMachine : Machine Root RootMove RootAnswer := ⟨Root.step⟩

def Root.blob? (root : Root) (digest : SHA256) : Option GoString :=
  root.files.read? (blobPath digest)

end MiniCloud.Artifact
