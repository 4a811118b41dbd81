import DistinctCount.Config.Basic
import DistinctCount.Json.Parser

namespace DistinctCount

/-- The value of a field, or its default where the field is missing. -/
def fieldOr {α : Type} (default : α) (read : Json → Option α) : Option Json → Option α
  | none => some default
  | some v => read v

/-- Seconds and nanoseconds, both given and nothing else. -/
def Duration.ofJson? (v : Json) : Option Duration := do
  guard (v.size = 2)
  let [some secs, some nanos] ← v.fields? ["secs", "nanos"] | none
  Duration.ofParts? (← secs.toNatBelow? UInt64.size) (← nanos.toNatBelow? UInt32.size)

def RetryPolicy.ofJson? (v : Json) : Option RetryPolicy := do
  let [maxAttempts, initialBackoff, maxBackoff] ←
    v.fields? ["max_attempts", "initial_backoff", "max_backoff"] | none
  let default : RetryPolicy := {}
  return {
    maxAttempts := ← fieldOr default.maxAttempts Json.toUInt32? maxAttempts
    initialBackoff := ← fieldOr default.initialBackoff Duration.ofJson? initialBackoff
    maxBackoff := ← fieldOr default.maxBackoff Duration.ofJson? maxBackoff }

def Hash.Family.ofName? : String → Option Hash.Family
  | "murmur3" => some .murmur3
  | "wyhash" => some .wyhash
  | _ => none

/-- The name of a family, alone or as the only member of an object that gives it no value. -/
def Hash.Family.ofJson? : Json → Option Hash.Family
  | .string name => name.bind Hash.Family.ofName?
  | .object [(some name, .null)] => Hash.Family.ofName? name
  | _ => none

namespace Config

def ofValue? (v : Json) : Option Config := do
  let [shards, sweepInterval, sweepBatch, saveInterval, saveBatch, channelCapacity, deleteTimeout,
      retry, hashing] ←
    v.fields? ["shards", "sweep_interval", "sweep_batch", "save_interval", "save_batch",
      "channel_capacity", "delete_timeout", "retry", "hashing"] | none
  let default : Config := {}
  let count (n : Nat) := fieldOr n (Json.toNatBelow? UInt64.size)
  let time (d : Duration) := fieldOr d Duration.ofJson?
  return {
    shards := ← count default.shards shards
    sweepInterval := ← time default.sweepInterval sweepInterval
    sweepBatch := ← count default.sweepBatch sweepBatch
    saveInterval := ← time default.saveInterval saveInterval
    saveBatch := ← count default.saveBatch saveBatch
    channelCapacity := ← count default.channelCapacity channelCapacity
    deleteTimeout := ← time default.deleteTimeout deleteTimeout
    retry := ← fieldOr default.retry RetryPolicy.ofJson? retry
    hashing := ← fieldOr default.hashing Hash.Family.ofJson? hashing }

def ofJson? (text : String) : Option Config :=
  (Json.parse? text).bind ofValue?

end Config

end DistinctCount
