import MiniCloud.Discovery.Builder

/-!
# Allocating serving sequences

`internal/discovery/publisher.go`: the sequences of one Discovery Epoch. `Build` and `BuildFull`
hold the mutex throughout, so a run of the publisher is a list of calls. Both write the position of
their inputs before the builder sees them, and move the sequence only after the last build.
-/

namespace MiniCloud.Discovery

open Lib Problem

structure Publisher where
  builder : Builder
  epoch : UInt64
  sequence : UInt64
  positive : epoch ≠ 0

def newPublisher (epoch : UInt64) (builder : Option Builder) : Except GoError Publisher :=
  if h : epoch = 0 then .error (.text "discovery publisher epoch must be greater than zero")
  else
    match builder with
    | none => .error (.text "discovery publisher builder is required")
    | some builder => .ok ⟨builder, epoch, 0, h⟩

namespace Publisher

def exhausted : GoError :=
  .text "discovery serving sequence is exhausted; a new epoch is required"

/-- The input at the position the publisher assigns. -/
def place (p : Publisher) (next : UInt64) (input : Input) : Input :=
  { input with discoveryEpoch := p.epoch, servingSequence := next }

def build (input : Input) : Op GoError Publisher Result := do
  let p ← get
  -- `math.MaxUint64`
  Op.failIf (p.sequence == 18446744073709551615) exhausted
  let next := p.sequence + 1
  let result ← Op.ofExcept (p.builder.build (p.place next input))
  set { p with sequence := next }
  return result

/-- The loop of `BuildFull`; `seen` are the identifiers of the inputs before. -/
def buildEach (p : Publisher) (next : UInt64) :
    List GoString → List Input → Except GoError (List Result)
  | _, [] => .ok []
  | seen, input :: rest => do
    checks [⟨seen.contains input.function.id,
      .text "discovery full sync contains a duplicate function id"⟩]
    let result ← p.builder.build (p.place next input)
    let results ← p.buildEach next (input.function.id :: seen) rest
    .ok (result :: results)

def buildFull (inputs : List Input) : Op GoError Publisher (List Result × UInt64) := do
  let p ← get
  -- `math.MaxUint64`
  Op.failIf (p.sequence == 18446744073709551615) exhausted
  let next := p.sequence + 1
  let results ← Op.ofExcept (p.buildEach next [] inputs)
  set { p with sequence := next }
  return (results, next)

def position (p : Publisher) : UInt64 × UInt64 := (p.epoch, p.sequence)

end Publisher

/-! ## Runs -/

inductive PublisherCall where
  | build (input : Input)
  | buildFull (inputs : List Input)
  | position

inductive PublisherAnswer where
  | built (result : Except GoError Result)
  | full (result : Except GoError (List Result × UInt64))
  | position (epoch sequence : UInt64)

def Publisher.step (p : Publisher) : PublisherCall → PublisherAnswer × Publisher
  | .build input => (.built (Op.exec (build input) p).1, (Op.exec (build input) p).2)
  | .buildFull inputs => (.full (Op.exec (buildFull inputs) p).1, (Op.exec (buildFull inputs) p).2)
  | .position => (.position p.position.1 p.position.2, p)

def publisherMachine : Machine Publisher PublisherCall PublisherAnswer := ⟨Publisher.step⟩

abbrev PublisherEvent := Lib.Event Publisher PublisherCall PublisherAnswer

end MiniCloud.Discovery
