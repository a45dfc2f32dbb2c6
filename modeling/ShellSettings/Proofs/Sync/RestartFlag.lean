import ShellSettings.Proofs.Store.RestartLaws
import ShellSettings.Proofs.Sync.AnyHost

/-!
# When a restart is required

Whatever is done with a session, and whatever its host sends, a restart is required
from the first patch on that went through and changed what stands at a listed path
(`Session.restartRequired_iff`). No other command, no message, and neither a load nor a
save raises the flag, and none takes it back.
-/

namespace ShellSettings

theorem Client.keepsFlag_handle {c c' : Client} {m : HostMessage}
    {outcome : Except SyncError Outcome} {now : Nat} (h : c.handle m now = (outcome, c')) :
    c.store.KeepsFlag c'.store := by
  cases handled_handle h with
  | suppressed _ store | failed _ _ _ store | overtaken _ _ _ _ store
  | unloaded _ _ _ _ _ store =>
    rw [store]
    exact .refl
  | stale => exact .refl
  | replaced _ store =>
    rw [store]
    exact Store.keepsFlag_install _
  | confirmed _ _ _ _ store => exact Store.keepsFlag_markSaved store
  | catalog _ store =>
    rw [store]
    exact Store.keepsFlag_applyCatalog _

namespace Session

variable {η : Type}

/-- What can be done with a session: every command may be given to its store, and any message may
come at any time. -/
inductive Action (η : Type) where
  | command (c : StoreCommand)
  -- The host has become another by itself.
  | host (host : η)
  | load (path : Option String) (now : Nat)
  | beginSave (now : Nat)
  | save (now : Nat)
  | handle (m : HostMessage) (now : Nat)
  | pump (now : Nat)

variable [Transport η] {s : Session η}

def act (s : Session η) : Action η → Session η
  | .command c => s.edit c
  | .host host => { s with host }
  | .load path now => (s.load path now).2
  | .beginSave now => (s.beginSave now).2
  | .save now => (s.save now).2
  | .handle m now => { s with client := (s.client.handle m now).2 }
  | .pump now => (s.pump now).2

def perform (s : Session η) (actions : List (Action η)) : Session η := actions.foldl act s

-- ---------------------------------------------------------------------------
-- One action
-- ---------------------------------------------------------------------------

theorem keepsFlag_load (s : Session η) (path : Option String) (now : Nat) :
    s.client.store.KeepsFlag (s.load path now).2.client.store := by
  obtain ⟨-, -, -, hstore | ⟨d, -, hstore⟩⟩ := load_frame s path now
  · rw [hstore]
    exact .refl
  · rw [hstore]
    exact Store.keepsFlag_install d

theorem keepsFlag_beginSave (s : Session η) (now : Nat) :
    s.client.store.KeepsFlag (s.beginSave now).2.client.store := by
  have tried := tried_beginSave s now
  generalize (s.beginSave now).1 = r, (s.beginSave now).2.client = c' at tried
  cases tried with
  | declined _ _ _ store | refused _ _ store | sent _ _ _ _ _ _ _ store =>
    rw [store]
    exact .refl

theorem keepsFlag_pump (s : Session η) (now : Nat) :
    s.client.store.KeepsFlag (s.pump now).2.client.store := by
  fun_induction Session.pump s now with
  | case1 | case2 => exact .refl
  | case3 s m host h e client hm => exact Client.keepsFlag_handle hm
  | case4 s m host h outcome client hm e final hp ih
  | case5 s m host h outcome client hm outcomes final hp ih =>
    rw [hp] at ih
    exact (Client.keepsFlag_handle hm).trans ih

theorem keepsFlag_awaitResult (s : Session η) (id : String) (now : Nat) :
    s.client.store.KeepsFlag (s.awaitResult id now).2.client.store := by
  fun_induction Session.awaitResult s id now with
  | case1 | case2 => exact .refl
  | case3 s m host h e client hm => exact Client.keepsFlag_handle hm
  | case4 s m host h client hm => exact Client.keepsFlag_handle hm
  | case5 s m host h other client hm ho ih => exact (Client.keepsFlag_handle hm).trans ih
  | case6 s m host h error client hm => exact Client.keepsFlag_handle hm
  | case7 s m host h other error client hm ho ih => exact (Client.keepsFlag_handle hm).trans ih
  | case8 s m host h outcome client _ _ hm ih => exact (Client.keepsFlag_handle hm).trans ih

theorem keepsFlag_save (s : Session η) (now : Nat) :
    s.client.store.KeepsFlag (s.save now).2.client.store := by
  have begun := keepsFlag_beginSave s now
  unfold Session.save
  split
  · rename_i e s' h
    rwa [h] at begun
  · rename_i id s' h
    rw [h] at begun
    exact begun.trans (keepsFlag_awaitResult s' id now)

theorem keepsFlag_act {a : Action η} (ha : ¬ ∃ c, a = .command c) :
    s.client.store.KeepsFlag (s.act a).client.store := by
  cases a with
  | command c => exact absurd ⟨c, rfl⟩ ha
  | host host => exact .refl
  | load path now => exact keepsFlag_load s path now
  | beginSave now => exact keepsFlag_beginSave s now
  | save now => exact keepsFlag_save s now
  | handle m now => exact Client.keepsFlag_handle rfl
  | pump now => exact keepsFlag_pump s now

theorem restartRequired_act (s : Session η) (a : Action η) :
    (s.act a).client.store.policy = s.client.store.policy ∧
      ((s.act a).client.store.restartRequired = true ↔ s.client.store.restartRequired = true ∨
        ∃ c, a = .command c ∧ s.client.store.Raises c) := by
  by_cases ha : ∃ c, a = .command c
  · obtain ⟨c, rfl⟩ := ha
    obtain ⟨hpolicy, hflag⟩ := s.client.store.restartRequired_execute c
    refine ⟨hpolicy, hflag.trans (or_congr_right ⟨fun h => ⟨c, rfl, h⟩, ?_⟩)⟩
    rintro ⟨c', hc, h⟩
    cases hc
    exact h
  · obtain ⟨hflag, hpolicy⟩ := keepsFlag_act (s := s) ha
    have hnot : ¬ ∃ c, a = .command c ∧ s.client.store.Raises c :=
      fun ⟨c, hc, _⟩ => ha ⟨c, hc⟩
    rw [hflag]
    exact ⟨hpolicy, (or_iff_left hnot).symm⟩

-- ---------------------------------------------------------------------------
-- Runs
-- ---------------------------------------------------------------------------

variable (start : Session η) (actions : List (Action η))

theorem policy_perform :
    (start.perform actions).client.store.policy = start.client.store.policy := by
  induction actions generalizing start with
  | nil => rfl
  | cons a actions ih => exact (ih (start.act a)).trans (restartRequired_act start a).1

theorem restartRequired_perform :
    (start.perform actions).client.store.restartRequired = true ↔
      start.client.store.restartRequired = true ∨ ∃ n c, actions[n]? = some (.command c) ∧
        (start.perform (actions.take n)).client.store.Raises c := by
  induction actions generalizing start with
  | nil => simp [perform]
  | cons a actions ih =>
    -- The patch in question is the first action, or one of those after it.
    have hsplit : (∃ n c, (a :: actions)[n]? = some (.command c) ∧
          (start.perform ((a :: actions).take n)).client.store.Raises c) ↔
        (∃ c, a = .command c ∧ start.client.store.Raises c) ∨
          ∃ n c, actions[n]? = some (.command c) ∧
            ((start.act a).perform (actions.take n)).client.store.Raises c := by
      rw [← Nat.or_exists_add_one]
      simp [perform]
    rw [hsplit, ← or_assoc, ← (restartRequired_act start a).2]
    exact ih (start.act a)

/-- At any point of a run, whatever the policy and whatever the host sends: a restart is required
exactly if it was at the start, or if a patch went through since that left another value at a listed
path than was there before. Whatever is not a patch that goes through leaves the flag as it is. The
listed paths never change; they are the built-in ones and those that were given. -/
theorem restartRequired_iff :
    ((start.perform actions).client.store.restartRequired = true ↔
      start.client.store.restartRequired = true ∨ ∃ n c, actions[n]? = some (.command c) ∧
        (start.perform (actions.take n)).client.store.Raises c) ∧
    (∀ n a, actions[n]? = some a →
      (∀ c, a = .command c → c.IsPatch →
        ∃ e, ((start.perform (actions.take n)).client.store.execute c).1 = .error e) →
      (start.perform (actions.take (n + 1))).client.store.restartRequired =
        (start.perform (actions.take n)).client.store.restartRequired) ∧
    (start.perform actions).client.store.policy = start.client.store.policy ∧
    ∀ texts, RestartPolicy.withPaths texts = .ok start.client.store.policy →
      ∀ p, p ∈ start.client.store.policy.paths ↔
        p ∈ RestartPolicy.builtIn.paths ∨ ∃ text ∈ texts, Path.parse text = .ok p := by
  refine ⟨restartRequired_perform start actions, fun n a ha hother => ?_,
    policy_perform start actions, fun texts h p => RestartPolicy.mem_of_withPaths h⟩
  have hnext : start.perform (actions.take (n + 1)) = (start.perform (actions.take n)).act a := by
    simp [perform, List.take_add_one, ha]
  have hnot : ¬ ∃ c, a = .command c ∧
      (start.perform (actions.take n)).client.store.Raises c := by
    rintro ⟨c, hc, hraises⟩
    obtain ⟨e, he⟩ := hother c hc hraises.patch
    obtain ⟨reply, hok⟩ := hraises.ok
    cases he.symm.trans hok
  rw [hnext, Bool.eq_iff_iff, (restartRequired_act _ a).2]
  exact or_iff_left hnot

-- ---------------------------------------------------------------------------
-- A slot that is listed
-- ---------------------------------------------------------------------------

def slotListed : Store where
  policy := ⟨RestartPolicy.builtIn.paths ++ [⟨["wallpaperCollection"]⟩]⟩
  ids := ⟨fun _ => "", 0⟩

/-- A patch drops the collection that the global slot names. That clears the slot, though the patch
says nothing about it. Going back to the snapshot leaves the flag. -/
theorem restartRequired_iff_slot_cleared :
    let start : Session MemoryHost := { client := { store := slotListed }, host := {} }
    let load : Action MemoryHost := .command (.load Store.onlyFjords)
    let patch : StoreCommand := .patch "" (.obj [("collections", .arr [])])
    RestartPolicy.withPaths ["wallpaperCollection"] = .ok slotListed.policy ∧
      (start.perform [load]).client.store.restartRequired = false ∧
      (start.perform [load, .command patch, .command .restore]).client.store.restartRequired =
        true := by
  intro start load patch
  let s : Store := (slotListed.install Store.onlyFjords).1
  obtain ⟨t, hpatch, hcleared⟩ :
      ∃ t, s.patch "" (.obj [("collections", .arr [])]) = .ok t ∧ t.get = .ok {} := ⟨_, rfl, rfl⟩
  have hexecute : s.execute patch = (.ok .done, t) := by
    simp only [patch, Store.execute, hpatch, Store.settle]
  have hchange : s.ListedChange t :=
    ⟨Store.onlyFjords, {}, rfl, hcleared, ⟨["wallpaperCollection"]⟩, by decide, rfl⟩
  have hraises : s.Raises patch :=
    ⟨trivial, ⟨.done, by rw [hexecute]⟩, by rwa [hexecute]⟩
  obtain ⟨hflag, -, -, -⟩ := restartRequired_iff start [load, .command patch, .command .restore]
  exact ⟨rfl, rfl, hflag.mpr (.inr ⟨1, patch, rfl, hraises⟩)⟩

end Session

end ShellSettings
