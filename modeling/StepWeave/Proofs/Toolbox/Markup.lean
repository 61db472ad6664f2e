import StepWeave.Proofs.Markup.Fields
import StepWeave.Toolbox.Markup

/-!
# Toolboxes read back from markup

Steps, interceptors and toolboxes are read back from their written forms, and it makes no
difference whether a field with its default is among their fields.  Which fields have a default
depends on the kind of a definition: `readKind_insert` goes from the fields that one kind makes
nothing of to the definitions of that kind.
-/

namespace StepWeave

open Markup

/-! ## Kinds -/

/-- The contents of fields, if all of them have a known type. -/
def contents? (fields : Fields Tree) : Option (Fields Content) :=
  fields.mapM fun f => (Content.ofTree? f.2).map (f.1, ·)

section

variable {κ : Type} {kinds : List (String × (Fields Content → Option κ))}
  {fields before after : Fields Tree} {contents : Fields Content} {key name : String}
  {value : Tree} {content : Content} {read : Fields Content → Option κ} {k : κ}

@[simp] theorem contents?_nil : contents? [] = some [] := rfl

@[simp] theorem contents?_cons : contents? ((key, value) :: fields) =
    (Content.ofTree? value).bind fun content =>
      (contents? fields).map ((key, content) :: ·) := by
  rw [contents?, List.mapM_cons]
  cases Content.ofTree? value with
  | none => rfl
  | some content => cases hrest : contents? fields <;> simp_all [contents?]

theorem contents?_append : contents? (before ++ after) =
    (contents? before).bind fun before => (contents? after).map (before ++ ·) := by
  rw [contents?, List.mapM_append]
  cases hbefore : contents? before <;> cases hafter : contents? after <;> simp_all [contents?]

theorem ne_of_contents? (h : contents? fields = some contents)
    (hlack : ∀ f ∈ fields, f.1 ≠ name) : ∀ c ∈ contents, c.1 ≠ name := by
  intro c hc
  obtain ⟨f, hf, hread⟩ := exists_of_mem_forall₂ (mapM_eq_some_iff.1 h).flip hc
  obtain ⟨content, -, rfl⟩ := Option.map_eq_some_iff.1 hread
  exact hlack f hf

theorem readKind_eq (fields : Fields Tree) : readKind kinds fields =
    (contents? fields).bind fun contents =>
      (Fields.required contents "kind" (Content.choice? kinds)).bind (· contents) := rfl

/-- The name of a kind decides how the fields after it are read. -/
theorem readKind_cons (hread : kinds.lookup name = some read)
    (hcontents : contents? fields = some contents) (hkind : ∀ f ∈ fields, f.1 ≠ "kind") :
    readKind kinds (("kind", .ofText name) :: fields) =
      read (("kind", .text name) :: contents) := by
  have hnone : contents.filter (·.1 = "kind") = [] := by
    simpa using ne_of_contents? hcontents hkind
  rw [readKind_eq, contents?_cons, Content.ofTree?_ofText, hcontents]
  simp [Fields.required, hnone, Content.choice?, hread]

theorem mem_of_choice? {α : Type} {options : List (String × α)} {a : α}
    (h : content.choice? options = some a) : ∃ name, (name, a) ∈ options := by
  unfold Content.choice? at h
  split at h
  next name =>
    obtain ⟨before, after, rfl, -⟩ := List.lookup_eq_some_iff.1 h
    exact ⟨name, by simp⟩
  next n =>
    obtain ⟨option, hoption, rfl⟩ := Option.map_eq_some_iff.1 h
    exact ⟨option.1, List.mem_of_getElem? hoption⟩
  next => cases h

/-- Reading the kind `name` gives the same with one field more. -/
def Idle (kinds : List (String × (Fields Content → Option κ))) (name key : String)
    (value : Tree) : Prop :=
  ∃ content, Content.ofTree? value = some content ∧
    ∀ read, (name, read) ∈ kinds → ∀ before after : Fields Content,
      (∀ f ∈ before ++ after, f.1 ≠ key) →
      read (before ++ (key, content) :: after) = read (before ++ after)

theorem readKind_insert {nameOf : κ → String}
    (hname : ∀ name read contents, (name, read) ∈ kinds → read contents = some k → nameOf k = name)
    (hidle : Idle kinds (nameOf k) key value) (hkind : key ≠ "kind")
    (hlack : ∀ f ∈ before ++ after, f.1 ≠ key) :
    readKind kinds (before ++ (key, value) :: after) = some k ↔
      readKind kinds (before ++ after) = some k := by
  obtain ⟨content, hcontent, hread⟩ := hidle
  obtain ⟨hlackBefore, hlackAfter⟩ := List.forall_mem_append.1 hlack
  rw [readKind_eq, readKind_eq, contents?_append, contents?_append, contents?_cons, hcontent]
  cases hbefore : contents? before with
  | none => rfl
  | some before' =>
      cases hafter : contents? after with
      | none => rfl
      | some after' =>
          have hlack' : ∀ c ∈ before' ++ after', c.1 ≠ key :=
            List.forall_mem_append.2
              ⟨ne_of_contents? hbefore hlackBefore, ne_of_contents? hafter hlackAfter⟩
          have hsame : Fields.required (before' ++ (key, content) :: after') "kind"
              (Content.choice? kinds) = Fields.required (before' ++ after') "kind"
              (Content.choice? kinds) := Fields.required_insert hkind
          simp only [Option.bind_some, Option.map_some, hsame]
          cases hchosen : Fields.required (before' ++ after') "kind" (Content.choice? kinds) with
          | none => rfl
          | some read =>
              -- Whichever side reads `k` tells that the reader is that of its kind.
              obtain ⟨_, -, -, hchoice⟩ := Fields.exists_of_required hchosen
              obtain ⟨name, hmem⟩ := mem_of_choice? hchoice
              constructor
              · intro h
                obtain rfl := hname name read _ hmem h
                exact (hread read hmem before' after' hlack').symm.trans h
              · intro h
                obtain rfl := hname name read _ hmem h
                exact (hread read hmem before' after' hlack').trans h

/-- The same among the fields of a definition, of which the kind reads its own. -/
theorem readKind_filter_insert {own : String × Tree → Bool} {nameOf : κ → String}
    (hname : ∀ name read contents, (name, read) ∈ kinds → read contents = some k → nameOf k = name)
    (hidle : Idle kinds (nameOf k) key value) (hown : own (key, value) = true)
    (hkind : key ≠ "kind") (hlack : ∀ f ∈ before ++ after, f.1 ≠ key) :
    readKind kinds ((before ++ (key, value) :: after).filter own) = some k ↔
      readKind kinds ((before ++ after).filter own) = some k := by
  rw [List.filter_append, List.filter_append, List.filter_cons_of_pos hown]
  refine readKind_insert hname hidle hkind ?_
  rw [← List.filter_append]
  exact fun f hf => hlack f (List.mem_of_mem_filter hf)

end

/-! ## Text steps -/

namespace TextStep

def Kind.name : Kind → String
  | seed .. => "seed"
  | append _ => "append"
  | appendKey _ => "append-key"
  | stop _ => "stop"
  | delay _ => "delay"
  | fail .. => "fail"
  | hook => "hook"

/-- The fields that may be left out, with their defaults. -/
def Kind.defaults : Kind → Fields Tree
  | seed .. | stop _ => [("text", .ofText "")]
  | fail .. => [("message", .ofText "step failed"), ("code", .null), ("user_key", .ofText "user")]
  | append _ | appendKey _ | delay _ | hook => []

def fields (s : TextStep) : Fields Tree := ("id", .ofText s.id) :: s.kind.toFields

variable {name key : String} {read : Fields Content → Option Kind} {k : Kind} {value : Tree}
  {contents : Fields Content}

theorem Kind.name_of_read (hmem : (name, read) ∈ kinds) (h : read contents = some k) :
    k.name = name := by
  simp only [kinds, List.mem_cons, Prod.mk.injEq, List.not_mem_nil, or_false] at hmem
  obtain ⟨rfl, rfl⟩ | ⟨rfl, rfl⟩ | ⟨rfl, rfl⟩ | ⟨rfl, rfl⟩ | ⟨rfl, rfl⟩ | ⟨rfl, rfl⟩ | ⟨rfl, rfl⟩ :=
    hmem
  all_goals
    simp only [Option.bind_eq_bind, Option.bind_eq_some_iff, Option.pure_def,
      Option.some.injEq] at h
    grind [name]

theorem Kind.idle_of_default (h : (key, value) ∈ k.defaults) : Idle kinds k.name key value := by
  cases k with
  | append _ | appendKey _ | delay _ | hook => cases h
  | seed _ _ | stop _ =>
      obtain ⟨rfl, rfl⟩ : key = "text" ∧ value = .ofText "" := by simpa [defaults] using h
      refine ⟨_, Content.ofTree?_ofText _, fun read hmem before after hlack => ?_⟩
      obtain rfl : read = _ := by simpa [kinds, name] using hmem
      simp (disch := first | assumption | rfl | decide) only
        [Fields.required_insert, Fields.optional_insert]
  | fail _ _ _ =>
      obtain ⟨rfl, rfl⟩ | ⟨rfl, rfl⟩ | ⟨rfl, rfl⟩ :
          key = "message" ∧ value = .ofText "step failed" ∨ key = "code" ∧ value = .null ∨
            key = "user_key" ∧ value = .ofText "user" := by
        simpa [defaults] using h
      all_goals
        refine ⟨_, by first | exact Content.ofTree?_ofText _ | exact Content.ofTree?_null,
          fun read hmem before after hlack => ?_⟩
        obtain rfl : read = _ := by simpa [kinds, name] using hmem
        simp (disch := first | assumption | rfl | decide) only
          [Fields.optional_insert, Fields.optional_insert_of_ne]

theorem Kind.ne_of_default (k : Kind) : ∀ f ∈ k.defaults, f.1 ≠ "id" ∧ f.1 ≠ "kind" := by
  cases k <;> simp [defaults]

theorem Kind.readKind_toFields (k : Kind) : readKind kinds k.toFields = some k := by
  cases k with
  | seed _ _ | append _ | appendKey _ | stop _ | hook =>
      exact (readKind_cons rfl rfl (by simp)).trans rfl
  | delay millis =>
      obtain ⟨content, hcontent, hmillis⟩ := Content.exists_ofTree?_ofNat millis
      have hcontents :
          contents? [("millis", .ofNat millis.toNat)] = some [("millis", content)] := by
        simp [hcontent]
      rw [toFields, readKind_cons rfl hcontents (by simp)]
      simp [Fields.required, hmillis]
  | fail message code userKey =>
      obtain ⟨content, hcontent, hcode⟩ := Content.exists_ofTree?_ofOption code
      have hcontents : contents? [("message", .ofText message), ("code", .ofOption code),
          ("user_key", .ofText userKey)] =
          some [("message", .text message), ("code", content), ("user_key", .text userKey)] := by
        simp [hcontent]
      rw [toFields, readKind_cons rfl hcontents (by simp)]
      simp [Fields.optional, hcode]

theorem ofTree?_eq_some_iff {t : Tree} {fields : Fields Tree} {s : TextStep}
    (ht : t.entries? = some fields) :
    ofTree? t = some s ↔ Fields.required fields "id" Tree.text? = some s.id ∧
      readKind kinds (fields.filter (·.1 ≠ "id")) = some s.kind := by
  rw [ofTree?, ht]
  simp only [Option.bind_eq_bind, Option.bind_some, Option.bind_eq_some_iff, Option.pure_def,
    Option.some.injEq]
  constructor
  · rintro ⟨id, hid, kind, hkind, rfl⟩
    exact ⟨hid, hkind⟩
  · rintro ⟨hid, hkind⟩
    exact ⟨_, hid, _, hkind, rfl⟩

theorem ofTree?_toTree (s : TextStep) : ofTree? s.toTree = some s := by
  have hne : ∀ f ∈ s.kind.toFields, f.1 ≠ "id" := by cases s.kind <;> simp [Kind.toFields]
  have hid : s.kind.toFields.filter (·.1 = "id") = [] := by simpa using hne
  have hown : s.kind.toFields.filter (·.1 ≠ "id") = s.kind.toFields := by simpa using hne
  rw [toTree, ofTree?_eq_some_iff (Tree.entries?_ofFields _)]
  constructor
  · simp [Fields.required, hid]
  · rw [List.filter_cons_of_neg (by simp), hown, s.kind.readKind_toFields]

theorem faithful : Faithful ofTree? toTree fun s => s.kind.defaults where
  read_write := ofTree?_toTree
  read_congr t t' h := by rw [ofTree?, ofTree?, h]
  read_insert s t t' before after key value hdefault hlack ht ht' := by
    obtain ⟨hid, hkind⟩ := s.kind.ne_of_default _ hdefault
    rw [ofTree?_eq_some_iff ht, ofTree?_eq_some_iff ht', Fields.required_insert hid,
      readKind_filter_insert (fun _ _ _ => Kind.name_of_read) (Kind.idle_of_default hdefault)
        (decide_eq_true hid) hkind hlack]

theorem nodup_fields (s : TextStep) : (s.fields.map Prod.fst).Nodup := by
  cases s with
  | mk id kind => cases kind <;> simp [fields, Kind.toFields]

/-- The tree gives the step, some fields left out that have their default. -/
def Written (s : TextStep) (t : Tree) : Prop := t.Gives s.kind.defaults s.fields

instance (s : TextStep) (t : Tree) : Decidable (s.Written t) :=
  inferInstanceAs (Decidable (t.Gives s.kind.defaults s.fields))

theorem ofTree?_of_written {s : TextStep} {t : Tree} (h : s.Written t) : ofTree? t = some s :=
  faithful.read_of_gives s.nodup_fields s.ofTree?_toTree h

end TextStep

/-! ## Text interceptors -/

theorem Mode.exists_ofTree?_toTree (m : Mode) : ∃ content,
    Content.ofTree? m.toTree = some content ∧ content.setting? names = some m := by
  cases m <;> exact ⟨_, Content.ofTree?_ofText _, rfl⟩

theorem OnError.exists_ofTree?_toTree (e : OnError) : ∃ content,
    Content.ofTree? e.toTree = some content ∧ content.setting? names = some e := by
  cases e <;> exact ⟨_, Content.ofTree?_ofText _, rfl⟩

namespace TextInterceptor

def Kind.name : Kind → String
  | record .. => "record"
  | skip .. => "skip"
  | recover .. => "recover"

/-- The fields of a kind that may be left out, with their defaults. -/
def Kind.defaults : Kind → Fields Tree
  | record .. => [("before_key", .ofText "before"), ("after_key", .ofText "after")]
  | skip .. => [("mode", Mode.afterOnly.toTree), ("text", .ofText "")]
  | recover .. =>
    [("on_error", OnError.resume.toTree), ("message", .null), ("error_key", .ofText "error")]

def defaults (i : TextInterceptor) : Fields Tree :=
  [("start", .null), ("end", .null)] ++ i.kind.defaults

def fields (i : TextInterceptor) : Fields Tree :=
  [("id", .ofText i.id), ("start", .ofOption i.start), ("end", .ofOption i.stop)] ++
    i.kind.toFields

variable {name key : String} {read : Fields Content → Option Kind} {k : Kind} {value : Tree}
  {contents : Fields Content}

theorem Kind.name_of_read (hmem : (name, read) ∈ kinds) (h : read contents = some k) :
    k.name = name := by
  simp only [kinds, List.mem_cons, Prod.mk.injEq, List.not_mem_nil, or_false] at hmem
  obtain ⟨rfl, rfl⟩ | ⟨rfl, rfl⟩ | ⟨rfl, rfl⟩ := hmem
  all_goals
    simp only [Option.bind_eq_bind, Option.bind_eq_some_iff, Option.pure_def,
      Option.some.injEq] at h
    grind [name]

theorem Kind.idle_of_default (h : (key, value) ∈ k.defaults) : Idle kinds k.name key value := by
  cases k with
  | record _ _ =>
      obtain ⟨rfl, rfl⟩ | ⟨rfl, rfl⟩ : key = "before_key" ∧ value = .ofText "before" ∨
          key = "after_key" ∧ value = .ofText "after" := by simpa [defaults] using h
      all_goals
        refine ⟨_, Content.ofTree?_ofText _, fun read hmem before after hlack => ?_⟩
        obtain rfl : read = _ := by simpa [kinds, name] using hmem
        simp (disch := first | assumption | rfl | decide) only
          [Fields.optional_insert, Fields.optional_insert_of_ne]
  | skip _ _ =>
      obtain ⟨rfl, rfl⟩ | ⟨rfl, rfl⟩ : key = "mode" ∧ value = Mode.afterOnly.toTree ∨
          key = "text" ∧ value = .ofText "" := by simpa [defaults] using h
      all_goals
        refine ⟨_, Content.ofTree?_ofText _, fun read hmem before after hlack => ?_⟩
        obtain rfl : read = _ := by simpa [kinds, name] using hmem
        simp (disch := first | assumption | rfl | decide) only
          [Fields.optional_insert, Fields.optional_insert_of_ne]
  | recover _ _ _ =>
      obtain ⟨rfl, rfl⟩ | ⟨rfl, rfl⟩ | ⟨rfl, rfl⟩ :
          key = "on_error" ∧ value = OnError.resume.toTree ∨ key = "message" ∧ value = .null ∨
            key = "error_key" ∧ value = .ofText "error" := by simpa [defaults] using h
      all_goals
        refine ⟨_, by first | exact Content.ofTree?_ofText _ | exact Content.ofTree?_null,
          fun read hmem before after hlack => ?_⟩
        obtain rfl : read = _ := by simpa [kinds, name] using hmem
        simp (disch := first | assumption | rfl | decide) only
          [Fields.optional_insert, Fields.optional_insert_of_ne]

theorem Kind.readKind_toFields (k : Kind) : readKind kinds k.toFields = some k := by
  cases k with
  | record _ _ => exact (readKind_cons rfl rfl (by simp)).trans rfl
  | skip mode text =>
      obtain ⟨content, hcontent, hmode⟩ := mode.exists_ofTree?_toTree
      have hcontents : contents? [("mode", mode.toTree), ("text", .ofText text)] =
          some [("mode", content), ("text", .text text)] := by simp [hcontent]
      rw [toFields, readKind_cons rfl hcontents (by simp)]
      simp [Fields.optional, hmode]
  | recover onError message errorKey =>
      obtain ⟨error, herror, honError⟩ := onError.exists_ofTree?_toTree
      obtain ⟨content, hcontent, hmessage⟩ := Content.exists_ofTree?_ofOption message
      have hcontents : contents? [("on_error", onError.toTree), ("message", .ofOption message),
          ("error_key", .ofText errorKey)] =
          some [("on_error", error), ("message", content), ("error_key", .text errorKey)] := by
        simp [herror, hcontent]
      rw [toFields, readKind_cons rfl hcontents (by simp)]
      simp [Fields.optional, honError, hmessage]

/-- Whether a field is one of the kind's own. -/
def isOwn (f : String × Tree) : Bool := !(["id", "start", "end"].contains f.1)

theorem Kind.own_of_default (k : Kind) : ∀ f ∈ k.defaults, isOwn f ∧ f.1 ≠ "kind" := by
  cases k <;> simp [defaults, isOwn]

theorem ofTree?_eq_some_iff {t : Tree} {fields : Fields Tree} {i : TextInterceptor}
    (ht : t.entries? = some fields) :
    ofTree? t = some i ↔ Fields.required fields "id" Tree.text? = some i.id ∧
      Fields.optional fields "start" Tree.optionText? none = some i.start ∧
      Fields.optional fields "end" Tree.optionText? none = some i.stop ∧
      readKind kinds (fields.filter isOwn) = some i.kind := by
  rw [ofTree?, ht]
  simp only [Option.bind_eq_bind, Option.bind_some, Option.bind_eq_some_iff, Option.pure_def,
    Option.some.injEq]
  constructor
  · rintro ⟨id, hid, start, hstart, stop, hstop, kind, hkind, rfl⟩
    exact ⟨hid, hstart, hstop, hkind⟩
  · rintro ⟨hid, hstart, hstop, hkind⟩
    exact ⟨_, hid, _, hstart, _, hstop, _, hkind, rfl⟩

theorem ofTree?_toTree (i : TextInterceptor) : ofTree? i.toTree = some i := by
  have hown : ∀ f ∈ i.kind.toFields, isOwn f := by cases i.kind <;> simp [Kind.toFields, isOwn]
  have hkept : i.kind.toFields.filter isOwn = i.kind.toFields := by simpa using hown
  have hnone (name : String) (hname : name ∈ ["id", "start", "end"]) :
      i.kind.toFields.filter (·.1 = name) = [] := by
    rw [List.filter_eq_nil_iff]
    rintro f hf heq
    have := hown f hf
    simp_all [isOwn]
  rw [toTree, ofTree?_eq_some_iff (Tree.entries?_ofFields _)]
  refine ⟨?_, ?_, ?_, ?_⟩
  · simp [Fields.required, hnone]
  · simp [Fields.optional, hnone]
  · simp [Fields.optional, hnone]
  · rw [List.filter_append, hkept]
    exact i.kind.readKind_toFields

theorem faithful : Faithful ofTree? toTree defaults where
  read_write := ofTree?_toTree
  read_congr t t' h := by rw [ofTree?, ofTree?, h]
  read_insert i t t' before after key value hdefault hlack ht ht' := by
    rw [ofTree?_eq_some_iff ht, ofTree?_eq_some_iff ht']
    obtain hrange | hkind := List.mem_append.1 hdefault
    · have hends : key = "start" ∧ value = .null ∨ key = "end" ∧ value = .null := by
        simpa using hrange
      have hdropped : (before ++ (key, value) :: after).filter isOwn =
          (before ++ after).filter isOwn := by
        have hnot : ¬isOwn (key, value) := by
          obtain ⟨rfl, -⟩ | ⟨rfl, -⟩ := hends <;> simp [isOwn]
        rw [List.filter_append, List.filter_append, List.filter_cons_of_neg hnot]
      rw [hdropped]
      obtain ⟨rfl, rfl⟩ | ⟨rfl, rfl⟩ := hends
      all_goals
        simp (disch := first | assumption | rfl | decide) only
          [Fields.required_insert, Fields.optional_insert, Fields.optional_insert_of_ne]
    · obtain ⟨hown, hne⟩ := i.kind.own_of_default _ hkind
      obtain ⟨hid, hstart, hend⟩ : key ≠ "id" ∧ key ≠ "start" ∧ key ≠ "end" := by
        simpa [isOwn] using hown
      rw [Fields.required_insert hid, Fields.optional_insert_of_ne hstart,
        Fields.optional_insert_of_ne hend,
        readKind_filter_insert (fun _ _ _ => Kind.name_of_read) (Kind.idle_of_default hkind) hown
          hne hlack]

theorem nodup_fields (i : TextInterceptor) : (i.fields.map Prod.fst).Nodup := by
  cases i with
  | mk id start stop kind => cases kind <;> simp [fields, Kind.toFields]

/-- The tree gives the interceptor, some fields left out that have their default. -/
def Written (i : TextInterceptor) (t : Tree) : Prop := t.Gives i.defaults i.fields

instance (i : TextInterceptor) (t : Tree) : Decidable (i.Written t) :=
  inferInstanceAs (Decidable (t.Gives i.defaults i.fields))

theorem ofTree?_of_written {i : TextInterceptor} {t : Tree} (h : i.Written t) :
    ofTree? t = some i :=
  faithful.read_of_gives i.nodup_fields i.ofTree?_toTree h

end TextInterceptor

/-! ## Toolboxes -/

namespace Toolbox

def defaults : Fields Tree := [("steps", .ofList []), ("interceptors", .ofList [])]

/-- The tree gives the toolbox, where it or its definitions may leave out fields that have
their default. -/
def Written (t : Toolbox) (tree : Tree) : Prop :=
  ∃ steps interceptors, List.Forall₂ TextStep.Written t.steps steps ∧
    List.Forall₂ TextInterceptor.Written t.interceptors interceptors ∧
    tree.Gives defaults [("steps", .ofList steps), ("interceptors", .ofList interceptors)]

theorem ofTree?_ofFields {t : Toolbox} {steps interceptors : List Tree}
    (hsteps : List.Forall₂ (fun s tree => TextStep.ofTree? tree = some s) t.steps steps)
    (hinterceptors : List.Forall₂ (fun i tree => TextInterceptor.ofTree? tree = some i)
      t.interceptors interceptors) :
    ofTree? (.ofFields [("steps", .ofList steps), ("interceptors", .ofList interceptors)]) =
      some t := by
  rw [ofTree?, Tree.entries?_ofFields]
  simp [Fields.optional, mapM_eq_some_iff.2 hsteps.flip, mapM_eq_some_iff.2 hinterceptors.flip]

theorem faithful : Faithful ofTree? toTree fun _ => defaults where
  read_write t := by
    refine ofTree?_ofFields ?_ ?_
    · rw [List.forall₂_map_right_iff, List.forall₂_same]
      exact fun s _ => s.ofTree?_toTree
    · rw [List.forall₂_map_right_iff, List.forall₂_same]
      exact fun i _ => i.ofTree?_toTree
  read_congr t t' h := by rw [ofTree?, ofTree?, h]
  read_insert a t t' before after key value hdefault hlack ht ht' := by
    rw [ofTree?, ofTree?, ht, ht']
    obtain ⟨rfl, rfl⟩ | ⟨rfl, rfl⟩ : key = "steps" ∧ value = .ofList [] ∨
        key = "interceptors" ∧ value = .ofList [] := by simpa [defaults] using hdefault
    all_goals
      simp (disch := first | assumption | rfl | decide) only [Option.bind_eq_bind,
        Option.bind_some, Fields.optional_insert, Fields.optional_insert_of_ne]

theorem written_toTree (t : Toolbox) : t.Written t.toTree := by
  refine ⟨_, _, ?_, ?_, Tree.gives_ofFields _ _⟩
  · rw [List.forall₂_map_right_iff, List.forall₂_same]
    exact fun s _ => Tree.gives_ofFields _ s.fields
  · rw [List.forall₂_map_right_iff, List.forall₂_same]
    exact fun i _ => Tree.gives_ofFields _ i.fields

theorem ofTree?_of_written {t : Toolbox} {tree : Tree} (h : t.Written tree) :
    ofTree? tree = some t := by
  obtain ⟨steps, interceptors, hsteps, hinterceptors, hgives⟩ := h
  have hfull := ofTree?_ofFields (hsteps.imp fun _ _ => TextStep.ofTree?_of_written)
    (hinterceptors.imp fun _ _ => TextInterceptor.ofTree?_of_written)
  exact faithful.read_of_gives (by simp) hfull hgives

theorem ofText_eq_ok_iff {text : String} {t : Toolbox} : ofText text = .ok t ↔
    (Tree.read demand text).bind ofTree? = some t ∧ t.check = .ok () := by
  rw [ofText]
  cases (Tree.read demand text).bind ofTree? with
  | none => simp
  | some t' =>
      cases hcheck : t'.check with
      | error cause => grind
      | ok => grind

end Toolbox

end StepWeave
