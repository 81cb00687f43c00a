import RecordDb.Client.Arguments
import RecordDb.Client.Command

/-!
# Calls in callback form

The callback form of commands: a command whose metadata and policy are still among the arguments, as
they were given with the callback.
-/
namespace RecordDb

/-- A command with its optional arguments as they were given. -/
inductive CallbackCall where
  | get (key : Key) (args : List (CallArgument ReadPolicy Unit))
  | select (key : Key) (bins : List String) (args : List (CallArgument ReadPolicy Unit))
  | existence (key : Key) (args : List (CallArgument ReadPolicy Unit))
  | put (key : Key) (bins : Bins) (args : List (CallArgument WritePolicy Unit))
  | remove (key : Key) (args : List (CallArgument RemovePolicy Unit))
  | operate (key : Key) (ops : List Operation) (args : List (CallArgument OperatePolicy Unit))
  | apply (key : Key) (call : UdfCall) (args : List (CallArgument ApplyPolicy Unit))
  | batchGet (keys : List Key) (args : List (CallArgument BatchPolicy Unit))
  | batchExists (keys : List Key) (args : List (CallArgument BatchPolicy Unit))
  | batchSelect (keys : List Key) (bins : List String) (args : List (CallArgument BatchPolicy Unit))

namespace CallbackCall

def append (key : Key) (bins : Bins) (args : List (CallArgument OperatePolicy Unit)) :
    CallbackCall :=
  .operate key (Command.perBin bins .append) args

def prepend (key : Key) (bins : Bins) (args : List (CallArgument OperatePolicy Unit)) :
    CallbackCall :=
  .operate key (Command.perBin bins .prepend) args

def incr (key : Key) (bins : Bins) (args : List (CallArgument OperatePolicy Unit)) :
    CallbackCall :=
  .operate key (Command.perBin bins .incr) args

/-- Another name for `incr`. -/
def add (key : Key) (bins : Bins) (args : List (CallArgument OperatePolicy Unit)) :
    CallbackCall :=
  incr key bins args

/-- The command that a call makes, if its arguments fit. -/
def command? : CallbackCall → Except Error Command
  | get key args => do
    return .get key (← CallArgument.normalize .policyOnly args).policy
  | select key bins args => do
    return .select key bins (← CallArgument.normalize .policyOnly args).policy
  | existence key args => do
    return .existence key (← CallArgument.normalize .policyOnly args).policy
  | put key bins args => do
    let n ← CallArgument.normalize .metadataPolicy args
    return .put key bins n.metadata n.policy
  | remove key args => do
    return .remove key (← CallArgument.normalize .policyOnly args).policy
  | operate key ops args => do
    let n ← CallArgument.normalize .metadataPolicy args
    return .operate key ops n.metadata n.policy
  | apply key call args => do
    return .apply key call (← CallArgument.normalize .policyOnly args).policy
  | batchGet keys args => do
    return .batchGet keys (← CallArgument.normalize .policyOnly args).policy
  | batchExists keys args => do
    return .batchExists keys (← CallArgument.normalize .policyOnly args).policy
  | batchSelect keys bins args => do
    return .batchSelect keys bins (← CallArgument.normalize .policyOnly args).policy

end CallbackCall

end RecordDb
