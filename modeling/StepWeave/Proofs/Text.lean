import StepWeave.Proofs.Run.Origin
import StepWeave.Proofs.Text.Rules

/-!
# Text steps and interceptors one by one

On a context that holds texts alone a text step fails for no other reason than a missing
value or because it is told to (`TextStep.act_eq_error_iff`), and every text step and
interceptor leaves such a context behind.  What an interceptor makes of the failure of a
wrapped step is `TextInterceptor.passOn`.
-/

namespace StepWeave

/-! ## Contexts of texts -/

namespace Context

/-- All values are texts. -/
def Textual (c : Context) : Prop := ∀ key v, c.values.find? key = some v → v.type = .string

/-- The text under a key, if there is a text. -/
def text? (c : Context) (key : String) : Option String :=
  (c.values.find? key).bind fun v => v.as? .string

variable {c : Context}

theorem textual_empty : Textual empty := fun _ _ h => nomatch h

theorem Textual.putText (h : c.Textual) (key text : String) : (c.putText key text).Textual := by
  intro key' v hv
  simp only [Context.putText, put, Keyed.find?_insert] at hv
  split at hv
  · cases hv
    rfl
  · exact h key' v hv

theorem Textual.getOptional_eq (h : c.Textual) (key : String) :
    c.getOptionalText key = .ok (c.text? key) := by
  unfold getOptionalText getOptional text?
  cases hv : c.values.find? key with
  | none => rfl
  | some v =>
      obtain ⟨type, x⟩ := v
      obtain rfl : type = .string := h key _ hv
      simp

theorem Textual.get_eq (h : c.Textual) (key : String) :
    c.getText key =
      match c.text? key with
      | some text => .ok text
      | none => .error (.missingValue key) := by
  have hget := h.getOptional_eq key
  unfold getOptionalText at hget
  unfold getText get
  rw [hget]
  cases c.text? key <;> rfl

theorem Textual.get_eq_error_iff (h : c.Textual) {key : String} {e : Failure} :
    c.getText key = .error e ↔ c.text? key = none ∧ e = .missingValue key := by
  rw [h.get_eq]
  cases c.text? key <;> simp [eq_comm]

end Context

/-- Where all values are texts on `work`, they are so on `later`. -/
def KeepsTexts (work later : Workspace String) : Prop :=
  work.context.Textual → later.context.Textual

/-! ## Steps -/

namespace TextStep

/-- The failures of a text step on a workspace with a context of texts. -/
inductive Raises (work : Workspace String) : TextStep → Failure → Prop where
  | seed {id key text : String} : work.context.text? key = none →
    Raises work ⟨id, .seed key text⟩ (.missingValue key)
  | appendKey {id key : String} : work.context.text? key = none →
    Raises work ⟨id, .appendKey key⟩ (.missingValue key)
  | fail {id message userKey : String} :
    Raises work ⟨id, .fail message none userKey⟩ (.stepFailed id message)
  | forbid {id message code userKey : String} :
    Raises work ⟨id, .fail message (some code) userKey⟩
      (.forbidden code ((work.context.text? userKey).getD anonymous))

variable {work : Workspace String}

theorem act_eq_error_iff (h : work.context.Textual) {s : TextStep} {e : Failure} :
    (s.toStep.act work).1 = .error e ↔ s.Raises work e := by
  constructor
  · intro hact
    obtain ⟨exit, hacts⟩ : ∃ exit, s.Acts work (.error e) exit :=
      ⟨_, act_eq_iff.1 (Prod.ext hact rfl)⟩
    cases hacts with
    | seedFails hget =>
        obtain ⟨htext, rfl⟩ := h.get_eq_error_iff.1 hget
        exact .seed htext
    | appendKeyFails hget =>
        obtain ⟨htext, rfl⟩ := h.get_eq_error_iff.1 hget
        exact .appendKey htext
    | fail => exact .fail
    | refuse hget =>
        obtain rfl := Except.ok.inj ((h.getOptional_eq _).symm.trans hget)
        exact .forbid
    | refuseFails hget => cases (h.getOptional_eq _).symm.trans hget
  · intro hraises
    have hacts : s.Acts work (.error e) work := by
      cases hraises with
      | seed htext => exact .seedFails (h.get_eq_error_iff.2 ⟨htext, rfl⟩)
      | appendKey htext => exact .appendKeyFails (h.get_eq_error_iff.2 ⟨htext, rfl⟩)
      | fail => exact .fail
      | forbid => exact .refuse (h.getOptional_eq _)
    rw [hacts.act_eq]

theorem act_of_error {s : TextStep} {e : Failure} (h : (s.toStep.act work).1 = .error e) :
    (s.toStep.act work).2 = work := by
  have hacts := s.acts_act work
  rw [h] at hacts
  exact hacts.exit_eq_of_error

theorem context_act (s : TextStep) (work : Workspace String) :
    (s.toStep.act work).2.context = work.context ∨
      (s.toStep.act work).2.context = work.context.setFinished true :=
  (s.acts_act work).context_eq

theorem respects_keepsTexts (s : TextStep) : s.toStep.Respects KeepsTexts := by
  intro work hwork
  obtain heq | heq := s.context_act work
  · rw [heq]
    exact hwork
  · rw [heq]
    exact hwork

end TextStep

/-! ## Interceptors -/

namespace TextInterceptor

/-- What goes on of the failure of a wrapped step: the failure itself, or one in its stead,
or none. -/
def passOn (i : TextInterceptor) (cause : Failure) : Option Failure :=
  match i.kind with
  | .record _ _ | .skip _ _ => some cause
  | .recover .resume _ _ | .recover .skipAfter _ _ => none
  | .recover .translate message _ => some (.stepFailed i.id (message.getD ""))

variable (i : TextInterceptor) (segment : Nat) (cause : Failure) (work : Workspace String)

theorem failure?_beforeCall : (i.toInterceptor.beforeCall segment work).failure? = none := by
  obtain ⟨id, start, stop, kind⟩ := i
  cases kind <;> rfl

theorem failure?_afterCall : (i.toInterceptor.afterCall segment work).failure? = none := by
  obtain ⟨id, start, stop, kind⟩ := i
  cases kind <;> rfl

theorem failure?_throwCall :
    (i.toInterceptor.throwCall segment cause work).failure? = i.passOn cause := by
  obtain ⟨id, start, stop, kind⟩ := i
  cases kind with
  | record beforeKey afterKey => rfl
  | skip mode text => rfl
  | recover onError message errorKey => cases onError <;> rfl

/-- Handing a failure to an interceptor fails with what goes on of it. -/
theorem failure_walkThrow (mode : Mode) :
    (i.toInterceptor.walkThrow segment mode cause work).failure = i.passOn cause := by
  obtain ⟨id, start, stop, kind⟩ := i
  cases kind with
  | record beforeKey afterKey => rfl
  | skip mode' text => rfl
  | recover onError message errorKey =>
      cases onError with
      | resume => cases mode <;> rfl
      | skipAfter => cases mode <;> rfl
      | translate => rfl

theorem respects_keepsTexts : i.toInterceptor.Respects KeepsTexts := by
  obtain ⟨id, start, stop, kind⟩ := i
  cases kind with
  | record beforeKey afterKey =>
      exact ⟨fun _ h => h.putText _ _, fun _ _ h => h, fun _ h => h.putText _ _⟩
  | skip mode text => exact ⟨fun _ h => h, fun _ _ h => h, fun _ h => h⟩
  | recover onError message errorKey =>
      exact ⟨fun _ h => h, fun _ _ h => h.putText _ _, fun _ h => h⟩

end TextInterceptor

end StepWeave
