import ShellSettings.Host.Disk
import ShellSettings.Host.Memory
import ShellSettings.Host.Script

/-!
# Any of the hosts

For a client whose host is chosen while it runs.
-/

namespace ShellSettings

inductive AnyHost where
  | memory (h : MemoryHost)
  | disk (h : DiskHost)
  | script (h : ScriptHost)

namespace AnyHost

def request (h : AnyHost) (r : HostRequest) : Except TransportError HostResponse × AnyHost :=
  match h with
  | .memory h => (h.request r).map id .memory
  | .disk h => (h.request r).map id .disk
  | .script h => h.request.map id .script

def submit (h : AnyHost) (r : HostRequest) : Except TransportError Unit × AnyHost :=
  match h with
  | .memory h => (h.submit r).map id .memory
  | .disk h => (h.submit r).map id .disk
  | .script h => h.submit.map id .script

def receive : AnyHost → Except TransportError (Option HostMessage) × AnyHost
  | .memory h => h.receive.map id .memory
  | .disk h => h.receive.map id .disk
  | .script h => h.receive.map id .script

def backlog : AnyHost → Nat
  | .memory h => Transport.backlog h
  | .disk h => Transport.backlog h
  | .script h => Transport.backlog h

instance : Transport AnyHost where
  request := request
  submit := submit
  receive := receive
  backlog := backlog
  backlog_receive h h' m e := by
    cases h <;> obtain ⟨he, rfl⟩ := Prod.mk.inj e <;>
      exact Transport.backlog_receive _ _ m (Prod.ext he rfl)

end AnyHost

end ShellSettings
