import MiniCloud.Digest

/-!
# Keys of compiled modules

`internal/workercache/key.go`: everything a compilation depends on. A placement request may carry
a key that nothing has checked, so the size keeps its width.
-/

namespace MiniCloud.WorkerCache

open Lib Digest

structure Key where
  artifactDigest : SHA256
  artifactSize : Int64
  runtimeName : GoString
  runtimeVersion : GoString
  abi : GoString
  hostAPIProfile : GoString
  runtimeFeatureProfile : GoString
  engine : GoString
  memoryLimitMiB : UInt32
  goos : GoString
  goarch : GoString
  deriving DecidableEq

end MiniCloud.WorkerCache
