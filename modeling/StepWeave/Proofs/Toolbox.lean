import StepWeave.Proofs.Catalog
import StepWeave.Proofs.Keys

/-!
# Checked toolboxes

A toolbox passes its check just when its steps have ids of their own, its interceptors have
ids of their own, and none of these lacks a message (`Toolbox.check_eq_ok_iff`).
-/

namespace StepWeave

namespace Toolbox

structure Sound (t : Toolbox) : Prop where
  steps : (t.steps.map (·.id)).Nodup
  interceptors : (t.interceptors.map (·.id)).Nodup
  messages : ∀ i ∈ t.interceptors, lacksMessage i = false

theorem checkSteps_eq_ok_iff {seen : List String} {steps : List TextStep} :
    checkSteps seen steps = .ok () ↔ Fresh TextStep.id seen steps := by
  induction steps generalizing seen with
  | nil => exact iff_of_true rfl fresh_nil
  | cons s rest ih =>
      rw [checkSteps, fresh_cons, ← ih]
      by_cases hseen : s.id ∈ seen <;> simp [hseen]

theorem checkInterceptors_eq_ok_iff {seen : List String} {interceptors : List TextInterceptor} :
    checkInterceptors seen interceptors = .ok () ↔
      Fresh TextInterceptor.id seen interceptors ∧
        ∀ i ∈ interceptors, lacksMessage i = false := by
  induction interceptors generalizing seen with
  | nil => exact iff_of_true rfl ⟨fresh_nil, by simp⟩
  | cons i rest ih =>
      rw [checkInterceptors, fresh_cons, List.forall_mem_cons, and_and_and_comm, ← ih]
      by_cases hseen : i.id ∈ seen
      · simp [hseen]
      · cases hlacks : lacksMessage i <;> simp [hseen]

theorem check_eq_ok_iff {t : Toolbox} : t.check = .ok () ↔ t.Sound := by
  have hsteps := @checkSteps_eq_ok_iff [] t.steps
  have hinterceptors := @checkInterceptors_eq_ok_iff [] t.interceptors
  rw [fresh_nil_seen] at hsteps hinterceptors
  rw [check]
  constructor
  · intro h
    split at h
    · cases h
    next hdistinct =>
      obtain ⟨hids, hmessages⟩ := hinterceptors.1 h
      exact ⟨hsteps.1 hdistinct, hids, hmessages⟩
  · intro h
    rw [hsteps.2 h.steps]
    exact hinterceptors.2 ⟨h.interceptors, h.messages⟩

end Toolbox

end StepWeave
