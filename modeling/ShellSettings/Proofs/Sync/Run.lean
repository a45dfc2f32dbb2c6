import ShellSettings.Sync.Session

/-!
# Runs of a session

A run is any order of edits, saves, loads, messages taken in and things that
happen on the side of the host. It carries its history: the saves begun and what
became of every message. Draining the host and saving while waiting for the
result are runs themselves (`Run.pump`, `Run.save`), so what holds in every state
of a run holds between any two messages that they take in.
-/

namespace ShellSettings

/-- Whether a command edits the document on behalf of the user or the catalogs. The others bring
in a document of the host, or take one for saved. -/
def StoreCommand.IsEdit : StoreCommand → Prop
  | .load _ | .replace _ | .markSaved _ => False
  | _ => True

namespace Session

variable {η : Type}

inductive Event (η : Type) where
  -- A save was begun in this session, under this id.
  | begun (before : Session η) (id : String)
  -- A message was taken in.
  | taken (before : Client) (message : HostMessage) (outcome : Except SyncError Outcome)
      (after : Client)

def Event.outcome? : Event η → Option Outcome
  | .taken _ _ (.ok outcome) _ => some outcome
  | _ => none

def edit (s : Session η) (c : StoreCommand) : Session η :=
  { s with client := { s.client with store := (s.client.store.execute c).2 } }

variable [Transport η]

def begun (s : Session η) (now : Nat) : List (Event η) :=
  match (s.beginSave now).1 with
  | .ok id => [.begun s id]
  | .error _ => []

/-- The sessions that can be reached, each with the history on the way. `moves` says what can
happen to the host without this client; the clock may show anything at any time. -/
inductive Run (moves : η → η → Prop) (start : Session η) : List (Event η) → Session η → Prop
  | start : Run moves start [] start
  | edit {log s c} (run : Run moves start log s) (h : StoreCommand.IsEdit c) :
    Run moves start log (s.edit c)
  | host {log s host} (run : Run moves start log s) (h : moves s.host host) :
    Run moves start log { s with host }
  | load {log s} (path : Option String) (now : Nat) (run : Run moves start log s) :
    Run moves start log (s.load path now).2
  | beginSave {log s} (now : Nat) (run : Run moves start log s) :
    Run moves start (log ++ s.begun now) (s.beginSave now).2
  | take {log s m host outcome client} (now : Nat) (run : Run moves start log s)
    (h : Transport.receive s.host = (.ok (some m), host))
    (hm : s.client.handle m now = (outcome, client)) :
    Run moves start (log ++ [.taken s.client m outcome client]) ⟨client, host⟩
  -- The host is asked for a message and gives none.
  | poll {log s r host} (run : Run moves start log s)
    (h : Transport.receive s.host = (r, host)) (hr : ∀ m, r ≠ .ok (some m)) :
    Run moves start log { s with host }

variable {moves : η → η → Prop} {start s : Session η} {log : List (Event η)}

theorem Run.handle_of_taken {c c' : Client} {m : HostMessage} {outcome : Except SyncError Outcome}
    (run : Run moves start log s) (h : .taken c m outcome c' ∈ log) :
    ∃ now, c.handle m now = (outcome, c') := by
  induction run with
  | start => cases h
  | edit _ _ ih | host _ _ ih | load _ _ _ ih | poll _ _ _ ih => exact ih h
  | @beginSave log s now run ih =>
    rcases List.mem_append.mp h with h | h
    · exact ih h
    · unfold begun at h
      split at h <;> simp at h
  | take now run _ hm ih =>
    rcases List.mem_append.mp h with h | h
    · exact ih h
    · cases List.mem_singleton.mp h
      exact ⟨now, hm⟩

theorem Run.pump (now : Nat) (run : Run moves start log s) :
    ∃ more, Run moves start (log ++ more) (s.pump now).2 ∧
      ∀ outcomes, (s.pump now).1 = .ok outcomes → outcomes = more.filterMap Event.outcome? := by
  fun_induction Session.pump s now generalizing log with
  | case1 s e host h => exact ⟨[], by simpa using run.poll h (by simp), by simp⟩
  | case2 s host h => exact ⟨[], by simpa using run.poll h (by simp), by simp⟩
  | case3 s m host h e client hm => exact ⟨_, run.take now h hm, nofun⟩
  | case4 s m host h outcome client hm e final hp ih =>
    obtain ⟨more, hmore, -⟩ := ih (run.take now h hm)
    exact ⟨_, by simpa [hp] using hmore, nofun⟩
  | case5 s m host h outcome client hm outcomes final hp ih =>
    obtain ⟨more, hmore, hout⟩ := ih (run.take now h hm)
    refine ⟨_, by simpa [hp] using hmore, ?_⟩
    simp [Event.outcome?, hout outcomes (by rw [hp])]

theorem Run.awaitResult (id : String) (now : Nat) (run : Run moves start log s) :
    ∃ more, Run moves start (log ++ more) (s.awaitResult id now).2 := by
  fun_induction Session.awaitResult s id now generalizing log with
  | case1 s e host h => exact ⟨[], by simpa using run.poll h (by simp)⟩
  | case2 s host h => exact ⟨[], by simpa using run.poll h (by simp)⟩
  | case3 s m host h e client hm => exact ⟨_, run.take now h hm⟩
  | case4 s m host h client hm => exact ⟨_, run.take now h hm⟩
  | case5 s m host h other client hm ho ih =>
    obtain ⟨more, hmore⟩ := ih (run.take now h hm)
    exact ⟨_, by simpa using hmore⟩
  | case6 s m host h error client hm => exact ⟨_, run.take now h hm⟩
  | case7 s m host h other error client hm ho ih =>
    obtain ⟨more, hmore⟩ := ih (run.take now h hm)
    exact ⟨_, by simpa using hmore⟩
  | case8 s m host h outcome client _ _ hm ih =>
    obtain ⟨more, hmore⟩ := ih (run.take now h hm)
    exact ⟨_, by simpa using hmore⟩

theorem Run.save (now : Nat) (run : Run moves start log s) :
    ∃ more, Run moves start (log ++ (s.begun now ++ more)) (s.save now).2 := by
  have begun := run.beginSave now
  unfold Session.save
  split
  · rename_i e s' h
    exact ⟨[], by simpa [h] using begun⟩
  · rename_i id s' h
    obtain ⟨more, hmore⟩ := (by simpa [h] using begun : Run moves start _ s').awaitResult id now
    exact ⟨more, by simpa using hmore⟩

end Session

end ShellSettings
