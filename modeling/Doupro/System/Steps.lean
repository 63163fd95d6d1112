import Doupro.System.World

/-!
# What one call can do

One inversion lemma for each kind of call; the proofs about programs use these and never
unfold `exec`.
-/

namespace Doupro

open Interaction

variable {allows : World → EnvEvent → Prop} {w w' : World} {ctx : Context}

theorem World.contextEnded_of_refusal {c : Choice} (h : w.refusal c ctx = none) :
    w.contextEnded ctx = false := by
  unfold World.refusal at h
  split at h
  · cases h
  · next hlive => simpa using hlive

theorem step_docker {call : DockerCall} {reply : Except GoError call.Result}
    (h : (system allows).step w (.docker ctx call) reply w') :
    (∃ err, reply = .error err ∧ w' = w) ∨
    ∃ (choice : DaemonChoice) (result : call.Result) (engine : Engine),
      w.contextEnded ctx = false ∧
      w.engine.perform choice w.clock call = .ok (result, engine) ∧
      reply = .ok result ∧ w' = { w with engine } := by
  obtain ⟨c, h⟩ := h
  simp only [World.exec] at h
  cases hrefusal : w.refusal c ctx with
  | some err =>
    rw [hrefusal] at h
    obtain ⟨rfl, rfl⟩ := Prod.mk.inj h
    exact .inl ⟨_, rfl, rfl⟩
  | none =>
    rw [hrefusal] at h
    cases hp : w.engine.perform c.toDaemonChoice w.clock call with
    | error err =>
      rw [hp] at h
      obtain ⟨rfl, rfl⟩ := Prod.mk.inj h
      exact .inl ⟨_, rfl, rfl⟩
    | ok out =>
      obtain ⟨result, engine⟩ := out
      rw [hp] at h
      obtain ⟨rfl, rfl⟩ := Prod.mk.inj h
      exact .inr ⟨_, result, engine, World.contextEnded_of_refusal hrefusal, hp, rfl, rfl⟩

theorem step_store {call : StoreCall} {reply : Except GoError call.Result}
    (h : (system allows).step w (.store ctx call) reply w') :
    (∃ err, reply = .error err ∧ w' = w) ∨
    ∃ (result : call.Result) (store : Store),
      w.contextEnded ctx = false ∧ w.store.perform w.clock call = .ok (result, store) ∧
      reply = .ok result ∧ w' = { w with store } := by
  obtain ⟨c, h⟩ := h
  simp only [World.exec] at h
  cases hrefusal : w.refusal c ctx with
  | some err =>
    rw [hrefusal] at h
    obtain ⟨rfl, rfl⟩ := Prod.mk.inj h
    exact .inl ⟨_, rfl, rfl⟩
  | none =>
    rw [hrefusal] at h
    cases hp : w.store.perform w.clock call with
    | error err =>
      rw [hp] at h
      obtain ⟨rfl, rfl⟩ := Prod.mk.inj h
      exact .inl ⟨_, rfl, rfl⟩
    | ok out =>
      obtain ⟨result, store⟩ := out
      rw [hp] at h
      obtain ⟨rfl, rfl⟩ := Prod.mk.inj h
      exact .inr ⟨result, store, World.contextEnded_of_refusal hrefusal, rfl, rfl, rfl⟩

theorem step_lookup {question : Lookup} {reply : Except GoError question.Result}
    (h : (system allows).step w (.lookup ctx question) reply w') : w' = w := by
  obtain ⟨c, h⟩ := h
  simp only [World.exec] at h
  split at h <;> exact (Prod.mk.inj h).2.symm

theorem step_now {reply : Time} (h : (system allows).step w .now reply w') :
    reply = w.clock ∧ w' = w := by
  obtain ⟨c, h⟩ := h
  obtain ⟨rfl, rfl⟩ := Prod.mk.inj h
  exact ⟨rfl, rfl⟩

theorem step_sleepUntil {deadline : Time} {reply : Option GoError}
    (h : (system allows).step w (.sleepUntil ctx deadline) reply w') :
    (reply = some .contextDone ∧ w.contextEnded ctx = true ∧ w' = w) ∨
    (reply = none ∧ w' = { w with clock := max w.clock deadline }) := by
  obtain ⟨c, h⟩ := h
  simp only [World.exec] at h
  split at h
  · next hended =>
    obtain ⟨rfl, rfl⟩ := Prod.mk.inj h
    exact .inl ⟨rfl, hended.1, rfl⟩
  · obtain ⟨rfl, rfl⟩ := Prod.mk.inj h
    exact .inr ⟨rfl, rfl⟩

theorem step_beginOperation {name kind : String} {reply : Option Operation}
    (h : (system allows).step w (.beginOperation name kind) reply w') :
    reply = (w.guard.begin name kind w.clock).1 ∧
      w' = { w with guard := (w.guard.begin name kind w.clock).2 } := by
  obtain ⟨c, h⟩ := h
  obtain ⟨rfl, rfl⟩ := Prod.mk.inj h
  exact ⟨rfl, rfl⟩

theorem step_endOperation {name kind : String} {reply : Unit}
    (h : (system allows).step w (.endOperation name kind) reply w') :
    w' = { w with guard := w.guard.release name } := by
  obtain ⟨c, h⟩ := h
  exact (Prod.mk.inj h).2.symm

theorem step_beginMaintenance {reply : Except (List String) Unit}
    (h : (system allows).step w .beginMaintenance reply w') :
    ((∃ active, reply = .error active) ∧ w' = w) ∨
    (reply = .ok () ∧ w.guard.maintenance = false ∧ w.guard.active = [] ∧
      w' = { w with guard := { w.guard with maintenance := true } }) := by
  obtain ⟨c, h⟩ := h
  simp only [World.exec, OperationGuard.beginMaintenance] at h
  split at h
  · next active hbegin =>
    obtain ⟨rfl, rfl⟩ := Prod.mk.inj h
    exact .inl ⟨⟨active, rfl⟩, rfl⟩
  · next guard hbegin =>
    obtain ⟨rfl, rfl⟩ := Prod.mk.inj h
    split at hbegin
    · cases hbegin
    · next hidle =>
      obtain rfl := Except.ok.inj hbegin
      rw [not_or, not_not] at hidle
      exact .inr ⟨rfl, by simpa using hidle.1, hidle.2, rfl⟩

theorem step_endMaintenance {reply : Unit} (h : (system allows).step w .endMaintenance reply w') :
    w' = { w with guard := w.guard.endMaintenance } := by
  obtain ⟨c, h⟩ := h
  exact (Prod.mk.inj h).2.symm

theorem step_maintenanceActive {reply : Bool}
    (h : (system allows).step w .maintenanceActive reply w') :
    reply = w.guard.maintenance ∧ w' = w := by
  obtain ⟨c, h⟩ := h
  obtain ⟨rfl, rfl⟩ := Prod.mk.inj h
  exact ⟨rfl, rfl⟩

theorem step_goShutdown {reply : Unit} (h : (system allows).step w .goShutdown reply w') :
    w' = w := by
  obtain ⟨c, h⟩ := h
  exact (Prod.mk.inj h).2.symm

theorem step_emit {event : LogEvent} {reply : Unit}
    (h : (system allows).step w (.emit event) reply w') : w' = w := by
  obtain ⟨c, h⟩ := h
  exact (Prod.mk.inj h).2.symm

theorem step_notify {notification : Notification} {reply : Unit}
    (h : (system allows).step w (.notify notification) reply w') : w' = w := by
  obtain ⟨c, h⟩ := h
  exact (Prod.mk.inj h).2.symm

theorem step_goRollback {watch : RollbackWatch} {reply : Unit}
    (h : (system allows).step w (.goRollback watch) reply w') : w' = w := by
  obtain ⟨c, h⟩ := h
  exact (Prod.mk.inj h).2.symm

theorem step_receive {reply : Option MonitorInput}
    (h : (system allows).step w (.receive ctx) reply w') :
    w' = w ∧ ∀ input, reply = some input → input.Genuine w.engine := by
  obtain ⟨c, h⟩ := h
  simp only [World.exec] at h
  split at h
  · obtain ⟨rfl, rfl⟩ := Prod.mk.inj h
    exact ⟨rfl, by simp⟩
  · split at h
    · next hgenuine =>
      obtain ⟨rfl, rfl⟩ := Prod.mk.inj h
      exact ⟨rfl, fun input hinput => Option.some.inj hinput ▸ hgenuine⟩
    · obtain ⟨rfl, rfl⟩ := Prod.mk.inj h
      refine ⟨rfl, fun input hinput => ?_⟩
      obtain rfl := Option.some.inj hinput
      trivial

end Doupro
