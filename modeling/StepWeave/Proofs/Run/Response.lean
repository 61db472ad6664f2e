import StepWeave.Proofs.Run.Text
import StepWeave.Proofs.Text.Rules

/-!
# How the response of text pipelines comes about

In a run of text steps and interceptors the response starts anew when a seed completes and only
grows otherwise.  So it is the text of the last seed, or the response before the run, and after
that the texts that steps and interceptors have added since (`Plan.response_grows`).
-/

namespace StepWeave

/-! ## Additions -/

theorem Context.text?_of_get {c : Context} {key value : String}
    (h : c.getText key = .ok value) : c.text? key = some value := by
  unfold getText get getOptional at h
  unfold text?
  cases hfind : c.values.find? key with
  | none =>
      rw [hfind] at h
      cases h
  | some v =>
      rw [hfind] at h
      cases has : v.as? .string with
      | none => simp [has] at h
      | some x => simpa [has] using h

namespace TextStep

/-- The step starts the response anew. -/
def Seeds (s : TextStep) : Prop := ∃ key text, s.kind = .seed key text

/-- The text that the step adds to the response when it completes on the context `c`. -/
def addition? (c : Context) (s : TextStep) : Option String :=
  match s.kind with
  | .append text | .stop text => some text
  | .appendKey key => c.text? key
  | _ => none

/-- The key of the text that the step puts into the response. -/
def source? (s : TextStep) : Option String :=
  match s.kind with
  | .seed key _ | .appendKey key => some key
  | _ => none

variable {s : TextStep} {work exit : Workspace String} {answer : Except Failure Unit}

theorem Acts.exists_source (h : s.Acts work (.ok ()) exit) {key : String}
    (hkey : s.source? = some key) : ∃ value, work.context.getText key = .ok value := by
  cases h with
  | seed hget =>
      cases hkey
      exact ⟨_, hget⟩
  | appendKey hget =>
      cases hkey
      exact ⟨_, hget⟩
  | append => cases hkey
  | stop => cases hkey
  | delay => cases hkey
  | hook => cases hkey

theorem Acts.response_of_seed {id key text : String}
    (h : Acts work ⟨id, .seed key text⟩ (.ok ()) exit) :
    ∃ value, work.context.getText key = .ok value ∧ exit.response = value ++ text := by
  cases h with
  | seed hget => exact ⟨_, hget, rfl⟩

theorem Acts.response_of_not_seeds (h : s.Acts work (.ok ()) exit) (hs : ¬s.Seeds) :
    exit.response = work.response ++ (s.addition? work.context).getD "" := by
  cases h with
  | seed => exact absurd ⟨_, _, rfl⟩ hs
  | append => rfl
  | appendKey hget => simp [addition?, Context.text?_of_get hget]
  | stop => rfl
  | delay => exact String.append_empty.symm
  | hook => exact String.append_empty.symm

end TextStep

/-- The text that the interceptor adds to the response after the steps. -/
def TextInterceptor.addition? (i : TextInterceptor) : Option String :=
  match i.kind with
  | .skip _ text => some text
  | _ => none

namespace TextSegment

/-- The step of the segment that a callback completes. -/
def completed? (part : TextSegment) : Callback → Option TextStep
  | .step position _ (.ok ()) => part.steps[position]?
  | _ => none

/-- The interceptor of the segment, if the callback is its action after the steps. -/
def closed? : TextSegment → Callback → Option TextInterceptor
  | intercepted i _, .after _ _ => some i
  | _, _ => none

end TextSegment

namespace Plan

/-- The step that a call in a run of text segments completes. -/
def completed? (parts : List TextSegment) (c : Call String) : Option TextStep :=
  parts[c.segment]?.bind fun part => part.completed? c.callback

/-- The interceptor that acts after its steps by a call in a run of text segments. -/
def closed? (parts : List TextSegment) (c : Call String) : Option TextInterceptor :=
  parts[c.segment]?.bind fun part => part.closed? c.callback

/-- The call completes a seed. -/
def Seeds (parts : List TextSegment) (c : Call String) : Prop :=
  ∃ s, completed? parts c = some s ∧ s.Seeds

/-- The text that a call adds to the response: that of the step that it completes, with what this
finds in the context, or that of the interceptor that acts by it. -/
def addition? (parts : List TextSegment) (c : Call String) : Option String :=
  ((completed? parts c).bind fun s => s.addition? c.entry.context).or
    ((closed? parts c).bind TextInterceptor.addition?)

/-- What the calls add to the response, in their order. -/
def additions (parts : List TextSegment) (calls : List (Call String)) : String :=
  String.join (calls.filterMap (addition? parts))

/-- How the response of a run of text segments comes about. -/
structure ResponseGrows (parts : List TextSegment) (work : Workspace String) : Prop where
  makes : ∀ c ∈ ((ofText parts).run work).calls, (ofText parts).Makes c
  /-- A step that completes finds the text that it is to put into the response. -/
  source : ∀ c ∈ ((ofText parts).run work).calls, ∀ s key, completed? parts c = some s →
    s.source? = some key → ∃ value, c.entry.context.getText key = .ok value
  /-- Without a seed the response before the run stays, and all additions follow it. -/
  unseeded : (∀ c ∈ ((ofText parts).run work).calls, ¬Seeds parts c) →
    ((ofText parts).run work).work.response =
      work.response ++ additions parts ((ofText parts).run work).calls
  /-- After the last seed its value and its text stay, and the additions since follow them. -/
  seeded : ∀ before c after id key text,
    ((ofText parts).run work).calls = before ++ c :: after →
    completed? parts c = some ⟨id, .seed key text⟩ → (∀ d ∈ after, ¬Seeds parts d) →
    ∃ value, c.entry.context.getText key = .ok value ∧
      ((ofText parts).run work).work.response = value ++ text ++ additions parts after

end Plan

/-! ## What a call does to the response -/

theorem TextInterceptor.Leaves.response_eq {i : TextInterceptor} {work exit : Workspace String}
    (h : i.Leaves work exit) : exit.response = work.response ++ i.addition?.getD "" := by
  cases h with
  | record => exact String.append_empty.symm
  | skip => rfl
  | recover => exact String.append_empty.symm

namespace TextSegment

/-- What a call of a segment does to the response: it completes a step, which goes by its rules,
or it adds what the interceptor adds, if it is the action after the steps, and else nothing. -/
inductive Answers (part : TextSegment) (c : Call String) : Prop
  | step {s : TextStep} : part.completed? c.callback = some s → part.closed? c.callback = none →
    s.Acts c.entry (.ok ()) c.exit → Answers part c
  | other : part.completed? c.callback = none →
    c.exit.response = c.entry.response ++
      ((part.closed? c.callback).bind TextInterceptor.addition?).getD "" → Answers part c

variable {part : TextSegment} {c : Call String} {k : Nat}

theorem closed?_step (part : TextSegment) (position : Nat) (id : String)
    (answer : Except Failure Unit) : part.closed? (.step position id answer) = none := by
  cases part <;> rfl

theorem answers_call {s : TextStep} {position : Nat} (hs : part.steps[position]? = some s)
    (work : Workspace String) : part.Answers (s.toStep.call k position work) := by
  have hacts := s.acts_act work
  cases hact : (s.toStep.act work).1 with
  | ok =>
      rw [hact] at hacts
      refine .step ?_ (part.closed?_step position s.id _) hacts
      rw [Step.call, hact]
      exact hs
  | error failure =>
      rw [hact] at hacts
      refine .other ?_ ?_
      · rw [Step.call, hact]
        rfl
      · rw [Step.call, closed?_step, hacts.exit_eq_of_error]
        exact String.append_empty.symm

theorem answers_of_makes (h : part.toSegment.Makes k c) : part.Answers c := by
  cases part with
  | plain s =>
      cases h with
      | plain => exact answers_call rfl _
  | intercepted i steps =>
      cases h with
      | @wrapped _ _ n step work hstep =>
          rw [List.getElem?_map, Option.map_eq_some_iff] at hstep
          obtain ⟨s, hs, rfl⟩ := hstep
          exact answers_call hs work
      | before => exact .other rfl String.append_empty.symm
      | onThrow => exact .other rfl String.append_empty.symm
      | after =>
          obtain ⟨-, hleaves⟩ := TextInterceptor.after_eq_iff.1 rfl
          exact .other rfl hleaves.response_eq

end TextSegment

namespace Plan

variable {parts : List TextSegment} {work : Workspace String} {c : Call String} {s : TextStep}

theorem acts_of_completed? (hc : c ∈ ((ofText parts).run work).calls)
    (hs : completed? parts c = some s) : s.Acts c.entry (.ok ()) c.exit := by
  obtain ⟨part, hpart, hmakes⟩ := makes_of_mem_calls_ofText hc
  rw [completed?, hpart, Option.bind_some] at hs
  cases TextSegment.answers_of_makes hmakes with
  | step hstep _ hacts =>
      obtain rfl := Option.some.inj (hstep.symm.trans hs)
      exact hacts
  | other hnone => simp [hnone] at hs

/-- A call that completes no seed leaves the response with its addition. -/
theorem response_exit (hc : c ∈ ((ofText parts).run work).calls) (hseeds : ¬Seeds parts c) :
    c.exit.response = c.entry.response ++ (addition? parts c).getD "" := by
  obtain ⟨part, hpart, hmakes⟩ := makes_of_mem_calls_ofText hc
  have hcompleted : completed? parts c = part.completed? c.callback := by
    rw [completed?, hpart, Option.bind_some]
  have hclosed : closed? parts c = part.closed? c.callback := by
    rw [closed?, hpart, Option.bind_some]
  cases TextSegment.answers_of_makes hmakes with
  | @step s hstep hnone hacts =>
      have hs : ¬s.Seeds := fun h => hseeds ⟨s, hcompleted.trans hstep, h⟩
      rw [addition?, hcompleted, hclosed, hstep, hnone, hacts.response_of_not_seeds hs]
      simp
  | other hnone hresponse =>
      rw [addition?, hcompleted, hclosed, hnone, hresponse]
      simp

theorem foldl_append_eq (start : String) (texts : List String) :
    texts.foldl (· ++ ·) start = start ++ String.join texts := by
  induction texts generalizing start with
  | nil => exact String.append_empty.symm
  | cons text rest ih => rw [List.foldl_cons, ih, String.join_cons, String.append_assoc]

/-- Calls that complete no seed leave the response with all their additions. -/
theorem response_of_relay {start finish : Workspace String} {calls : List (Call String)}
    (h : Relay start calls finish)
    (hcalls : ∀ c ∈ calls, c.exit.response = c.entry.response ++ (addition? parts c).getD "") :
    finish.response = start.response ++ additions parts calls := by
  rw [additions, ← foldl_append_eq]
  refine h.foldl_eq (fun work => work.response) _ fun c hc => ?_
  rw [hcalls c hc]
  cases addition? parts c with
  | none => exact String.append_empty
  | some text => rfl

/-- However a run of text steps and interceptors ends, its response is the response before it, or
if a seed has completed the value and the text of the last one, and after that the additions of
all calls since, in their order. -/
theorem response_grows (parts : List TextSegment) (work : Workspace String) :
    ResponseGrows parts work where
  makes _ := makes_of_mem_calls
  source c hc s key hs hkey := (acts_of_completed? hc hs).exists_source hkey
  unseeded hseeds := response_of_relay ((ofText parts).relay_run work) fun c hc =>
    response_exit hc (hseeds c hc)
  seeded before c after id key text hcalls hs hafter := by
    have hmem (d : Call String) (hd : d ∈ c :: after) : d ∈ ((ofText parts).run work).calls := by
      rw [hcalls]
      exact List.mem_append_right before hd
    have hrelay := (ofText parts).relay_run work
    rw [hcalls] at hrelay
    obtain ⟨value, hvalue, hexit⟩ := (acts_of_completed? (hmem c (by simp)) hs).response_of_seed
    refine ⟨value, hvalue, ?_⟩
    rw [← hexit]
    exact response_of_relay hrelay.drop fun d hd =>
      response_exit (hmem d (List.mem_cons_of_mem c hd)) (hafter d hd)

/-- A draft, and then a greeting that starts with what the context holds. -/
def greeting : List TextSegment :=
  [.plain ⟨"draft", .append "To whom it may concern"⟩,
    .intercepted ⟨"finish", none, none, .skip .all "!"⟩
      [⟨"greet", .seed "salute" ", "⟩, ⟨"name", .appendKey "name"⟩]]

def greeted : Context := (Context.empty.putText "salute" "Hello").putText "name" "Ada"

/-- Of the draft nothing stays, and the name and the mark follow the seed. -/
theorem response_grows_greeting :
    ResponseGrows greeting ⟨greeted, ""⟩ ∧
      ∃ before c after, ((ofText greeting).run ⟨greeted, ""⟩).calls = before ++ c :: after ∧
        completed? greeting c = some ⟨"greet", .seed "salute" ", "⟩ ∧
        additions greeting after = "Ada!" ∧
        ∃ value, c.entry.context.getText "salute" = .ok value ∧
          ((ofText greeting).run ⟨greeted, ""⟩).work.response = value ++ ", " ++ "Ada!" ∧
          ((ofText greeting).run ⟨greeted, ""⟩).work.response = "Hello, Ada!" := by
  have hgrows := response_grows greeting ⟨greeted, ""⟩
  have hcalls : ((ofText greeting).run ⟨greeted, ""⟩).calls = [_, _] ++ _ :: [_, _] := rfl
  have hadditions : additions greeting
      ((((ofText greeting).run ⟨greeted, ""⟩).calls).drop 3) = "Ada!" := by decide
  obtain ⟨value, hvalue, hresponse⟩ := hgrows.seeded _ _ _ _ _ _ hcalls rfl (by
    rintro d hd ⟨s, hs, key, text, hkind⟩
    rw [List.mem_cons, List.mem_singleton] at hd
    obtain rfl | rfl := hd
    · cases hs
      cases hkind
    · cases hs)
  exact ⟨hgrows, _, _, _, hcalls, rfl, hadditions, value, hvalue, hadditions ▸ hresponse, rfl⟩

end Plan

end StepWeave
