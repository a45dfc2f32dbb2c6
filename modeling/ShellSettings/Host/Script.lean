import ShellSettings.Host.Transport

/-!
# A host that follows a script

Answers each call with the next entry of a list made beforehand, for driving a
client through exchanges that no well-behaved host would have.
-/

namespace ShellSettings

structure ScriptHost where
  responses : List (Except TransportError HostResponse) := []
  submits : List (Except TransportError Unit) := []
  messages : List (Except TransportError (Option HostMessage)) := []

namespace ScriptHost

def request (h : ScriptHost) : Except TransportError HostResponse × ScriptHost :=
  match h.responses with
  | [] => (.error (.protocol "script exhausted"), h)
  | r :: rest => (r, { h with responses := rest })

def submit (h : ScriptHost) : Except TransportError Unit × ScriptHost :=
  match h.submits with
  | [] => (.ok (), h)
  | r :: rest => (r, { h with submits := rest })

def receive (h : ScriptHost) : Except TransportError (Option HostMessage) × ScriptHost :=
  match h.messages with
  | [] => (.ok none, h)
  | m :: rest => (m, { h with messages := rest })

instance : Transport ScriptHost where
  request h _ := h.request
  submit h _ := h.submit
  receive := receive
  backlog h := h.messages.length
  backlog_receive h h' m e := by
    unfold receive at e
    split at e <;> simp_all
    obtain ⟨-, rfl⟩ := e
    simp

end ScriptHost

end ShellSettings
