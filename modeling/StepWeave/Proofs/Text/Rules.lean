import StepWeave.TextInterceptor
import StepWeave.TextStep

/-!
# Rules for text steps and interceptors

What the definition of a text step or interceptor stands for, as rules with one case for each
way in which it can go.  A step or an interceptor that goes by these rules is the one that the
definition is turned into, and no other (`TextStep.instance_iff`,
`TextInterceptor.instance_iff`).
-/

namespace StepWeave

/-! ## Steps -/

namespace TextStep

/-- What a step answers on a workspace, and the workspace that it leaves. -/
inductive Acts (work : Workspace String) :
    TextStep → Except Failure Unit → Workspace String → Prop
  | seed {id key text value : String} : work.context.getText key = .ok value →
    Acts work ⟨id, .seed key text⟩ (.ok ()) ⟨work.context, value ++ text⟩
  | seedFails {id key text : String} {failure : Failure} :
    work.context.getText key = .error failure →
    Acts work ⟨id, .seed key text⟩ (.error failure) work
  | append {id text : String} :
    Acts work ⟨id, .append text⟩ (.ok ()) ⟨work.context, work.response ++ text⟩
  | appendKey {id key value : String} : work.context.getText key = .ok value →
    Acts work ⟨id, .appendKey key⟩ (.ok ()) ⟨work.context, work.response ++ value⟩
  | appendKeyFails {id key : String} {failure : Failure} :
    work.context.getText key = .error failure →
    Acts work ⟨id, .appendKey key⟩ (.error failure) work
  | stop {id text : String} :
    Acts work ⟨id, .stop text⟩ (.ok ()) ⟨work.context.setFinished true, work.response ++ text⟩
  | delay {id : String} {millis : UInt64} : Acts work ⟨id, .delay millis⟩ (.ok ()) work
  | fail {id message userKey : String} :
    Acts work ⟨id, .fail message none userKey⟩ (.error (.stepFailed id message)) work
  /-- A user whose name is missing is refused all the same. -/
  | refuse {id message code userKey : String} {user : Option String} :
    work.context.getOptionalText userKey = .ok user →
    Acts work ⟨id, .fail message (some code) userKey⟩
      (.error (.forbidden code (user.getD "anonymous"))) work
  | refuseFails {id message code userKey : String} {failure : Failure} :
    work.context.getOptionalText userKey = .error failure →
    Acts work ⟨id, .fail message (some code) userKey⟩ (.error failure) work
  | hook {id : String} : Acts work ⟨id, .hook⟩ (.ok ()) work

variable {s : TextStep} {work exit : Workspace String} {answer : Except Failure Unit}

theorem Acts.act_eq (h : s.Acts work answer exit) : s.toStep.act work = (answer, exit) := by
  cases h with
  | seed hget => simp [toStep, Kind.act, hget]
  | seedFails hget => simp [toStep, Kind.act, hget]
  | append => rfl
  | appendKey hget => simp [toStep, Kind.act, hget]
  | appendKeyFails hget => simp [toStep, Kind.act, hget]
  | stop => rfl
  | delay => rfl
  | fail => rfl
  | refuse hget => simp [toStep, Kind.act, hget, anonymous]
  | refuseFails hget => simp [toStep, Kind.act, hget]
  | hook => rfl

/-- There is a rule for every step on every workspace. -/
theorem exists_acts (s : TextStep) (work : Workspace String) :
    ∃ answer exit, s.Acts work answer exit := by
  obtain ⟨id, kind⟩ := s
  cases kind with
  | seed key text =>
      cases hget : work.context.getText key with
      | ok value => exact ⟨_, _, .seed hget⟩
      | error failure => exact ⟨_, _, .seedFails hget⟩
  | append text => exact ⟨_, _, .append⟩
  | appendKey key =>
      cases hget : work.context.getText key with
      | ok value => exact ⟨_, _, .appendKey hget⟩
      | error failure => exact ⟨_, _, .appendKeyFails hget⟩
  | stop text => exact ⟨_, _, .stop⟩
  | delay millis => exact ⟨_, _, .delay⟩
  | fail message code userKey =>
      cases code with
      | none => exact ⟨_, _, .fail⟩
      | some code =>
          cases hget : work.context.getOptionalText userKey with
          | ok user => exact ⟨_, _, .refuse hget⟩
          | error failure => exact ⟨_, _, .refuseFails hget⟩
  | hook => exact ⟨_, _, .hook⟩

theorem acts_act (s : TextStep) (work : Workspace String) :
    s.Acts work (s.toStep.act work).1 (s.toStep.act work).2 := by
  obtain ⟨answer, exit, h⟩ := s.exists_acts work
  rwa [h.act_eq]

/-- A step that fails leaves the workspace as it found it. -/
theorem Acts.exit_eq_of_error {failure : Failure} (h : s.Acts work (.error failure) exit) :
    exit = work := by
  cases h <;> rfl

/-- Of the context a step touches nothing but the mark that ends the run. -/
theorem Acts.context_eq (h : s.Acts work answer exit) :
    exit.context = work.context ∨ exit.context = work.context.setFinished true := by
  cases h with
  | stop => exact .inr rfl
  | _ => exact .inl rfl

theorem act_eq_iff : s.toStep.act work = (answer, exit) ↔ s.Acts work answer exit := by
  constructor
  · intro h
    have hacts := s.acts_act work
    rwa [h] at hacts
  · exact Acts.act_eq

/-- The step is what the definition stands for. -/
structure Instance (s : TextStep) (step : Step String) : Prop where
  id_eq : step.id = s.id
  /-- Nothing but a delay holds the run up. -/
  pause_eq : step.pause = match s.kind with
    | .delay millis => millis.toNat
    | _ => 0
  act_iff : ∀ work answer exit, step.act work = (answer, exit) ↔ s.Acts work answer exit

theorem instance_toStep (s : TextStep) : s.Instance s.toStep where
  id_eq := rfl
  pause_eq := by
    obtain ⟨id, kind⟩ := s
    cases kind <;> rfl
  act_iff _ _ _ := act_eq_iff

theorem instance_iff {step : Step String} : s.Instance step ↔ s.toStep = step := by
  constructor
  · intro h
    have hact : step.act = s.toStep.act := by
      funext work
      exact (h.act_iff work _ _).2 (s.acts_act work)
    have hpause : step.pause = s.toStep.pause := h.pause_eq.trans s.instance_toStep.pause_eq.symm
    obtain ⟨id, pause, act⟩ := step
    obtain rfl : id = s.id := h.id_eq
    obtain rfl : pause = s.toStep.pause := hpause
    obtain rfl : act = s.toStep.act := hact
    rfl
  · rintro rfl
    exact s.instance_toStep

end TextStep

/-! ## Interceptors -/

namespace TextInterceptor

/-- What an interceptor lets run, and the context that it leaves. -/
inductive Enters (c : Context) : TextInterceptor → Mode → Context → Prop
  | record {id : String} {start stop : Option String} {beforeKey afterKey : String} :
    Enters c ⟨id, start, stop, .record beforeKey afterKey⟩ .all
      (c.putText beforeKey (start.getD "" ++ stop.getD ""))
  | skip {id : String} {start stop : Option String} {mode : Mode} {text : String} :
    Enters c ⟨id, start, stop, .skip mode text⟩ mode c
  | recover {id : String} {start stop : Option String} {onError : OnError}
      {message : Option String} {errorKey : String} :
    Enters c ⟨id, start, stop, .recover onError message errorKey⟩ .all c

/-- What an interceptor makes of the failure of a step, and the context that it leaves. -/
inductive Catches (cause : Failure) (c : Context) :
    TextInterceptor → Except Failure Recovery → Context → Prop
  | record {id : String} {start stop : Option String} {beforeKey afterKey : String} :
    Catches cause c ⟨id, start, stop, .record beforeKey afterKey⟩ (.error cause) c
  | skip {id : String} {start stop : Option String} {mode : Mode} {text : String} :
    Catches cause c ⟨id, start, stop, .skip mode text⟩ (.error cause) c
  | resume {id : String} {start stop : Option String} {message : Option String}
      {errorKey : String} :
    Catches cause c ⟨id, start, stop, .recover .resume message errorKey⟩ (.ok .resume)
      (c.putText errorKey cause.message)
  | skipAfter {id : String} {start stop : Option String} {message : Option String}
      {errorKey : String} :
    Catches cause c ⟨id, start, stop, .recover .skipAfter message errorKey⟩ (.ok .skipAfter)
      (c.putText errorKey cause.message)
  | translate {id : String} {start stop : Option String} {message : Option String}
      {errorKey : String} :
    Catches cause c ⟨id, start, stop, .recover .translate message errorKey⟩
      (.error (.stepFailed id (message.getD ""))) (c.putText errorKey cause.message)

/-- The workspace that an interceptor leaves after the steps.  It never fails there. -/
inductive Leaves (work : Workspace String) : TextInterceptor → Workspace String → Prop
  | record {id : String} {start stop : Option String} {beforeKey afterKey : String} :
    Leaves work ⟨id, start, stop, .record beforeKey afterKey⟩
      ⟨work.context.putText afterKey (start.getD "" ++ stop.getD ""), work.response⟩
  | skip {id : String} {start stop : Option String} {mode : Mode} {text : String} :
    Leaves work ⟨id, start, stop, .skip mode text⟩ ⟨work.context, work.response ++ text⟩
  | recover {id : String} {start stop : Option String} {onError : OnError}
      {message : Option String} {errorKey : String} :
    Leaves work ⟨id, start, stop, .recover onError message errorKey⟩ work

variable {i : TextInterceptor} {c c' : Context} {work exit : Workspace String} {mode : Mode}
  {cause : Failure} {answer : Except Failure Recovery}

theorem before_eq_iff {decision : Except Failure Mode} :
    i.toInterceptor.before c = (decision, c') ↔
      ∃ mode, decision = .ok mode ∧ i.Enters c mode c' := by
  obtain ⟨id, start, stop, kind⟩ := i
  constructor
  · intro h
    cases kind with
    | record beforeKey afterKey => cases h; exact ⟨_, rfl, .record⟩
    | skip mode text => cases h; exact ⟨_, rfl, .skip⟩
    | recover onError message errorKey => cases h; exact ⟨_, rfl, .recover⟩
  · rintro ⟨mode, rfl, h⟩
    cases h <;> rfl

theorem onThrow_eq_iff :
    i.toInterceptor.onThrow cause c = (answer, c') ↔ i.Catches cause c answer c' := by
  obtain ⟨id, start, stop, kind⟩ := i
  constructor
  · intro h
    cases kind with
    | record beforeKey afterKey => cases h; exact .record
    | skip mode text => cases h; exact .skip
    | recover onError message errorKey =>
        cases onError with
        | resume => cases h; exact .resume
        | skipAfter => cases h; exact .skipAfter
        | translate => cases h; exact .translate
  · intro h
    cases h <;> rfl

theorem after_eq_iff {answer : Except Failure Unit} :
    i.toInterceptor.after work = (answer, exit) ↔ answer = .ok () ∧ i.Leaves work exit := by
  obtain ⟨id, start, stop, kind⟩ := i
  constructor
  · intro h
    cases kind with
    | record beforeKey afterKey => cases h; exact ⟨rfl, .record⟩
    | skip mode text => cases h; exact ⟨rfl, .skip⟩
    | recover onError message errorKey => cases h; exact ⟨rfl, .recover⟩
  · rintro ⟨rfl, h⟩
    cases h <;> rfl

/-- The interceptor is what the definition stands for. -/
structure Instance (i : TextInterceptor) (j : Interceptor String) : Prop where
  id_eq : j.id = i.id
  start_eq : j.start = i.start
  stop_eq : j.stop = i.stop
  before_iff : ∀ c decision c', j.before c = (decision, c') ↔
    ∃ mode, decision = .ok mode ∧ i.Enters c mode c'
  onThrow_iff : ∀ cause c answer c', j.onThrow cause c = (answer, c') ↔
    i.Catches cause c answer c'
  after_iff : ∀ work answer exit, j.after work = (answer, exit) ↔
    answer = .ok () ∧ i.Leaves work exit

theorem instance_toInterceptor (i : TextInterceptor) : i.Instance i.toInterceptor := by
  have hrange : i.toInterceptor.id = i.id ∧ i.toInterceptor.start = i.start ∧
      i.toInterceptor.stop = i.stop := by
    obtain ⟨id, start, stop, kind⟩ := i
    cases kind <;> exact ⟨rfl, rfl, rfl⟩
  obtain ⟨hid, hstart, hstop⟩ := hrange
  exact {
    id_eq := hid
    start_eq := hstart
    stop_eq := hstop
    before_iff := fun _ _ _ => before_eq_iff
    onThrow_iff := fun _ _ _ _ => onThrow_eq_iff
    after_iff := fun _ _ _ => after_eq_iff }

theorem instance_iff {j : Interceptor String} : i.Instance j ↔ i.toInterceptor = j := by
  constructor
  · intro h
    have hown := i.instance_toInterceptor
    have hbefore : j.before = i.toInterceptor.before := by
      funext c
      exact (h.before_iff c _ _).2 ((hown.before_iff c _ _).1 rfl)
    have hthrow : j.onThrow = i.toInterceptor.onThrow := by
      funext cause c
      exact (h.onThrow_iff cause c _ _).2 ((hown.onThrow_iff cause c _ _).1 rfl)
    have hafter : j.after = i.toInterceptor.after := by
      funext work
      exact (h.after_iff work _ _).2 ((hown.after_iff work _ _).1 rfl)
    have hid : j.id = i.toInterceptor.id := h.id_eq.trans hown.id_eq.symm
    have hstart : j.start = i.toInterceptor.start := h.start_eq.trans hown.start_eq.symm
    have hstop : j.stop = i.toInterceptor.stop := h.stop_eq.trans hown.stop_eq.symm
    obtain ⟨id, start, stop, before, after, onThrow⟩ := j
    simp only at hid hstart hstop hbefore hthrow hafter
    rw [hid, hstart, hstop, hbefore, hthrow, hafter]
  · rintro rfl
    exact i.instance_toInterceptor

end TextInterceptor

end StepWeave
