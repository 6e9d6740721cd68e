import MiniCloud.ControlPlane.Assignment
import MiniCloud.Lib.Machine

/-!
# The four stores together

The catalog, the releases, the routes and the assignments refer to each other, and every command
of any of them is one atomic step on all four. A run is any finite sequence of commands with any
arguments, from empty stores.
-/

namespace MiniCloud.ControlPlane

open Lib Problem Digest Model

structure Stores where
  catalog : Catalog
  releases : ReleaseStore
  routes : RouteStore
  assignments : AssignmentStore
  deriving DecidableEq

def newStores : Stores := ⟨newCatalog, newReleaseStore, newRouteStore, newAssignmentStore⟩

inductive Command where
  | createFunction (command : CreateFunctionCommand)
  | setFunctionLifecycle (command : SetFunctionLifecycleCommand)
  | rotateInvocationToken (command : RotateInvocationTokenCommand)
  | createVersion (command : CreateVersionCommand)
  | startValidation (command : StartValidationCommand)
  | completeValidation (command : CompleteValidationCommand)
  | publishRoute (command : PublishRouteCommand)
  | installAssignment (command : InstallAssignmentCommand)
  | cancelAssignment (command : CancelAssignmentCommand)

inductive Reply where
  | created (snapshot : CatalogSnapshot)
  | function (function : Function)
  | trigger (trigger : HTTPTrigger)
  | version (version : Version)
  | admitted (version : Version) (deployment : Option Deployment)
  | published (route : Route) (function : Function)
  | assignment (record : AssignmentRecord)

namespace Stores

variable {α : Type}

def onCatalog (m : Op GoError Catalog α) : Op GoError Stores α :=
  Op.onPart m Stores.catalog fun s c => { s with catalog := c }

def onReleases (m : Op GoError ReleaseStore α) : Op GoError Stores α :=
  Op.onPart m Stores.releases fun s r => { s with releases := r }

def onRoutes (m : Op GoError (Catalog × RouteStore) α) : Op GoError Stores α :=
  Op.onPart m (fun s => (s.catalog, s.routes)) fun s p => { s with catalog := p.1, routes := p.2 }

def onAssignments (m : Op GoError AssignmentStore α) : Op GoError Stores α :=
  Op.onPart m Stores.assignments fun s a => { s with assignments := a }

end Stores

open Stores in
/-- Run one command. The cross-store reads see the stores as they are when the command starts. -/
def Command.run : Command → Op GoError Stores Reply
  | .createFunction command => .created <$> onCatalog (Catalog.createFunction command)
  | .setFunctionLifecycle command => .function <$> onCatalog (Catalog.setFunctionLifecycle command)
  | .rotateInvocationToken command => .trigger <$> onCatalog (Catalog.rotateInvocationToken command)
  | .createVersion command => do
    let s ← get
    .version <$> onReleases (ReleaseStore.createVersion s.catalog command)
  | .startValidation command => .version <$> onReleases (ReleaseStore.startValidation command)
  | .completeValidation command =>
    (fun r => .admitted r.1 r.2) <$> onReleases (ReleaseStore.completeValidation command)
  | .publishRoute command => do
    let s ← get
    (fun r => .published r.1 r.2) <$> onRoutes (RouteStore.publish s.releases command)
  | .installAssignment command => do
    let s ← get
    .assignment <$> onAssignments (AssignmentStore.install s.catalog s.releases s.routes command)
  | .cancelAssignment command => .assignment <$> onAssignments (AssignmentStore.cancel command)

/-- The commands of version admission. -/
def Command.writesVersions : Command → Bool
  | .createVersion _ | .startValidation _ | .completeValidation _ => true
  | _ => false

def storesMachine : Machine Stores Command (Except GoError Reply) :=
  ⟨fun s command => Op.exec command.run s⟩

abbrev StoreEvent := Event Stores Command (Except GoError Reply)

/-- What some sequence of commands makes of empty stores. -/
abbrev Stores.Reachable (s : Stores) : Prop := storesMachine.Reachable newStores s

end MiniCloud.ControlPlane
