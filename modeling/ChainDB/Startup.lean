import ChainDB.Lifecycle
import ChainDB.Terminal

/-! Main.cpp and ChainDB.cpp: the service from its arguments to its exit code. The logger is left out, and
of `daemonize` all but the `fork`. -/
namespace ChainDB
open Effects Transition

namespace Startup
open Application Handler

inductive Flag where
  | daemonize
  deriving DecidableEq, Repr

inductive Number where
  | serverPort
  deriving DecidableEq, Repr

inductive Text where
  | logPath | storageDir | password
  deriving DecidableEq, Repr

abbrev Options := IApplication.Targets Flag Number Text

def handlers : IApplication.HandlerMap Flag Number Text := [
  (ascii "--daemonize",.bool .daemonize),
  (ascii "--log-path",.string .logPath),
  (ascii "--storage-path",.string .storageDir),
  (ascii "--password",.string .password),
  (ascii "--port",.int .serverPort)]

def defaults : Options where
  bool _ := true
  int _ := 8888
  string
    | .logPath => ascii "chain_db_service.log"
    | .storageDir => []
    | .password => []

structure Environment where
  fork : Int
  status : Int
  poll : Int
  deriving DecidableEq, Repr

def initializeRandomGenerator (environment : Environment) : Bool :=
  if environment.status = 0 then false else if environment.poll = 0 then false else true

/-- `main` up to the call of `run`: the end of the process, or the members that `run` reads. -/
inductive Launch where
  | ended (exit : Exit)
  | running (options : Options)

def seed (environment : Environment) (options : Options) : Launch :=
  if initializeRandomGenerator environment then .running options else .ended (.code (-1))

/- `daemonize` leaves the process where `fork` returned anything but 0. -/
def launch (environment : Environment) (argv : List Bytes) : Launch :=
  match IApplication.parseArgs handlers argv defaults with
  | (.halt _,_) => .ended .aborted
  | (.absent,_) => .ended (.code (-1))
  | (.done _,options) =>
    if options.bool .daemonize then
      if environment.fork ≠ 0 then .ended (.code 0) else seed environment options
    else seed environment options

def handlerOf (options : Options) : Handler := ⟨⟨options.string .storageDir⟩,options.string .password⟩

def exitOf : Lifecycle.Main → Option Exit
  | .returned result => some (.code (if result then 0 else -1))
  | _ => none

def main (sys : Platform) (environment : Environment) (argv : List Bytes) (memory : Memory)
    (labels : List Lifecycle.Label) : Option Exit :=
  match launch environment argv with
  | .ended exit => some exit
  | .running options =>
    (Transition.run (Lifecycle.step (service sys (handlerOf options))) (Lifecycle.begun memory) labels).bind
      fun p => exitOf p.main

def Accepted (argv : List Bytes) (options : Options) : Prop :=
  IApplication.parseArgs handlers argv defaults = (.done (),options)

section Ends
variable {sys : Platform} {environment : Environment} {argv : List Bytes} {memory : Memory}
  {labels : List Lifecycle.Label} {options : Options}

end Ends

end Startup
end ChainDB
